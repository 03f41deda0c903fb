/-
# HiddenLoads.Proofs.Sums -- folding a `+` against running it

Running a `+` adds two numbers and joins everything else as text, so its meaning depends on what
both sides have become (`Value.add`, `Expr.evaluate?`).  Folding joins the texts of all operands,
however the tree nests.

For strings and whole numbers the two agree exactly if no `+` of the tree has a number on both sides
(`Expr.addsNumbers`).  One direction is plain.  In the other one a folded text is never shorter than
the text of the value, and digits joined are another text than that of the sum: `1 + 2` folds into
`12`.  What is joined around it cannot make up for the difference.  The comparison of one text with
one value is `Value.Read`, and `Value.Read.add` is the step from the two sides of a `+` to the whole.
-/
import HiddenLoads.Proofs.Folding
import HiddenLoads.Proofs.Literals

namespace HiddenLoads

set_option autoImplicit false

def Number.whole? (n : Number) : Option Nat := n.toInt?.bind Int.toNat?

/-- What running a `+` gives.  Whole numbers below `2 ^ 53` are added without rounding, so natural
numbers stand for them. -/
inductive Value where
  | number (n : Nat)
  | text (t : Text)
deriving DecidableEq, Repr

namespace Value

def toText : Value → Text
  | .number n => Text.ofNat n
  | .text t => t

/-- Two numbers are added, everything else is joined as text. -/
def add : Value → Value → Value
  | .number m, .number n => .number (m + n)
  | v, w => .text (v.toText ++ w.toText)

def isNumber : Value → Bool
  | .number _ => true
  | .text _ => false

end Value

namespace Expr

/-- The operands whose sums can be run: strings and whole numbers. -/
def isSummand : Expr → Bool
  | .string .. => true
  | .number _ value => value.whole?.isSome
  | _ => false

def evaluate? : Expr → Option Value
  | .string _ text => some (.text text)
  | .number _ value => value.whole?.map .number
  | .binary _ operator left right =>
      if operator = plus then do some ((← evaluate? left).add (← evaluate? right)) else none
  | _ => none

def total : Expr → Nat
  | .number _ value => value.whole?.getD 0
  | .binary _ _ left right => total left + total right
  | _ => 0

def isNumeric (e : Expr) : Bool := e.evaluate?.any Value.isNumber

/-- Some `+` of the tree has a number on both sides. -/
def addsNumbers : Expr → Bool
  | .binary _ _ left right =>
      addsNumbers left || addsNumbers right || (left.isNumeric && right.isNumeric)
  | _ => false

end Expr

/-! ## Decimal texts -/

namespace Text

/-- A sum has no more digits than its two sides together. -/
theorem length_ofNat_add_le (m n : Nat) :
    (ofNat (m + n)).length ≤ (ofNat m).length + (ofNat n).length := by
  have posM := length_ofNat_pos m
  have posN := length_ofNat_pos n
  have belowM : m < 10 ^ (ofNat m).length := (length_ofNat_le_iff posM).1 (Nat.le_refl _)
  have belowN : n < 10 ^ (ofNat n).length := (length_ofNat_le_iff posN).1 (Nat.le_refl _)
  generalize (ofNat m).length = j at *
  generalize (ofNat n).length = k at *
  rw [length_ofNat_le_iff (by omega), Nat.pow_add]
  -- Both factors are at least ten, so their product is more than their sum.
  have tenJ : 10 ≤ 10 ^ j := Nat.le_self_pow (by omega) 10
  have tenK : 10 ≤ 10 ^ k := Nat.le_self_pow (by omega) 10
  have wide : 10 ^ j * 10 ≤ 10 ^ j * 10 ^ k := Nat.mul_le_mul_left _ tenK
  have high : 10 * 10 ^ k ≤ 10 ^ j * 10 ^ k := Nat.mul_le_mul_right _ tenJ
  omega

theorem ofChar_injective : Function.Injective CodePoint.ofChar := by
  intro c d same
  rw [CodePoint.ofChar, CodePoint.ofChar, Fin.mk.injEq] at same
  exact Char.toNat_inj.1 same

end Text

namespace Number

/-- A whole number below `2 ^ 53` is written in decimal. -/
theorem format_of_whole {value : Number} {n : Nat} (whole : value.whole? = some n)
    (small : n < 2 ^ 53) : value.format = .ok (Text.ofNat n) := by
  obtain ⟨i, isInt, isNat⟩ := Option.bind_eq_some_iff.1 whole
  have same : i = n := by
    cases i with
    | ofNat m => exact congrArg Int.ofNat (Option.some.inj isNat)
    | negSucc m => simp [Int.toNat?] at isNat
  subst same
  have fits : ¬ (Text.ofNat (n : Int).natAbs).length > Numeral.digitLimit := by
    rw [Int.natAbs_natCast, Nat.not_lt, Text.length_ofNat_le_iff (by decide)]
    exact Nat.lt_of_lt_of_le small (Nat.le_trans (by decide : 2 ^ 53 ≤ 10 ^ 16)
      (Nat.pow_le_pow_right (by decide) (by decide)))
  have written : formatInt n = .ok (Text.ofNat n) := by
    rw [formatInt, if_neg fits]
    rfl
  cases value with
  | integer j =>
      cases isInt
      exact written
  | float x =>
      cases x with
      | nan | infinite => cases isInt
      | finite negative mantissa exponent =>
          have exactly : (Binary64.finite negative mantissa exponent).toInt? = some (n : Int) := isInt
          simp only [format, exactly]
          exact written

end Number

/-! ## A folded text and the value -/

namespace Value

/-- What folding reads off an expression against what running it gives; `added` tells whether
numbers are added on the way. -/
structure Read (folded : Text) (v : Value) (added : Bool) : Prop where
  /-- The folded text is not the shorter one. -/
  length_le : v.toText.length ≤ folded.length
  /-- The folded text of a number is made of digits, which stand for no smaller number. -/
  digits : ∀ n, v = .number n →
    ∃ chars, folded = chars.map CodePoint.ofChar ∧ n ≤ Nat.ofDigitChars 10 chars 0
  /-- The two are the same text exactly if no numbers are added. -/
  eq_iff : folded = v.toText ↔ added = false

namespace Read

theorem text (t : Text) : Read t (.text t) false :=
  ⟨Nat.le_refl _, nofun, iff_of_true rfl rfl⟩

theorem number (n : Nat) : Read (Text.ofNat n) (.number n) false := by
  refine ⟨Nat.le_refl _, ?_, iff_of_true rfl rfl⟩
  rintro _ ⟨⟩
  exact ⟨_, rfl, Nat.le_of_eq Nat.ofDigitChars_ten_toDigits.symm⟩

variable {t u : Text} {v w : Value} {added added' : Bool}

/-- Joined texts, neither of which is the shorter one, are equal exactly if both parts are. -/
theorem joined (left : Read t v added) (right : Read u w added') :
    t ++ u = v.toText ++ w.toText ↔ (added || added') = false := by
  rw [Bool.or_eq_false_iff, ← left.eq_iff, ← right.eq_iff]
  constructor
  · intro same
    have lengths := congrArg List.length same
    rw [List.length_append, List.length_append] at lengths
    have shorter := left.length_le
    have shorter' := right.length_le
    exact List.append_inj same (by omega)
  · rintro ⟨rfl, rfl⟩
    rfl

/-- Digits joined are more than the sum, or more than one digit for it. -/
theorem joined_ne_sum {m n : Nat} (left : Read t (.number m) added)
    (right : Read u (.number n) added') : t ++ u ≠ Text.ofNat (m + n) := by
  intro same
  obtain ⟨chars, rfl, atLeast⟩ := left.digits m rfl
  obtain ⟨chars', rfl, atLeast'⟩ := right.digits n rfl
  have long := left.length_le
  have long' := right.length_le
  have positive := Text.length_ofNat_pos m
  have positive' := Text.length_ofNat_pos n
  simp only [toText, List.length_map] at long long'
  have lengths := congrArg List.length same
  rw [List.length_append, List.length_map, List.length_map] at lengths
  -- The number that the joined digits stand for is at least `10 * m + n`, so `m` is zero.
  have sum : Nat.ofDigitChars 10 (chars ++ chars') 0 = m + n := by
    rw [← List.map_append, Text.ofNat] at same
    rw [List.map_injective_iff.2 Text.ofChar_injective same, Nat.ofDigitChars_ten_toDigits]
  rw [Nat.ofDigitChars_append, Nat.ofDigitChars_eq_ofDigitChars_zero] at sum
  have ten : 10 ≤ 10 ^ chars'.length := Nat.le_self_pow (by omega) 10
  have scaled : 10 * m ≤ 10 ^ chars'.length * Nat.ofDigitChars 10 chars 0 :=
    Nat.mul_le_mul ten atLeast
  have zero : m = 0 := by omega
  -- But then there are digits in front of those of `n`.
  rw [zero, Nat.zero_add] at lengths
  omega

theorem add (left : Read t v added) (right : Read u w added') :
    Read (t ++ u) (v.add w) (added || added' || (v.isNumber && w.isNumber)) := by
  have lengths : v.toText.length + w.toText.length ≤ (t ++ u).length := by
    rw [List.length_append]
    exact Nat.add_le_add left.length_le right.length_le
  have texts (joins : v.add w = .text (v.toText ++ w.toText))
      (mixed : (v.isNumber && w.isNumber) = false) :
      Read (t ++ u) (v.add w) (added || added' || (v.isNumber && w.isNumber)) := by
    rw [joins, mixed, Bool.or_false]
    refine ⟨?_, nofun, left.joined right⟩
    rw [toText, List.length_append]
    exact lengths
  cases v with
  | text a => exact texts (by cases w <;> rfl) rfl
  | number m =>
      cases w with
      | text b => exact texts rfl rfl
      | number n =>
          refine ⟨Nat.le_trans (Text.length_ofNat_add_le m n) lengths, ?_, ?_⟩
          · rintro _ ⟨⟩
            obtain ⟨chars, rfl, atLeast⟩ := left.digits m rfl
            obtain ⟨chars', rfl, atLeast'⟩ := right.digits n rfl
            refine ⟨chars ++ chars', (List.map_append).symm, ?_⟩
            rw [Nat.ofDigitChars_append, Nat.ofDigitChars_eq_ofDigitChars_zero]
            have scaled : 1 * m ≤ 10 ^ chars'.length * Nat.ofDigitChars 10 chars 0 :=
              Nat.mul_le_mul (Nat.pow_pos (by decide)) atLeast
            omega
          · exact iff_of_false (left.joined_ne_sum right) (by simp [isNumber])

end Read

end Value

namespace Expr

/-- Strings and whole numbers joined by `+` can be run, and fold into a text that compares with the
value as the sums in the tree say. -/
theorem exists_read (known : Bindings Text) {e : Expr}
    (summands : ∀ operand ∈ e.operands, operand.isSummand = true) (exact : e.total < 2 ^ 53) :
    ∃ v fragments, e.evaluate? = some v ∧ fold known e = .ok ⟨fragments, .complete⟩ ∧
      Value.Read fragments.flatten v e.addsNumbers := by
  induction e using operands.induct with
  | case1 span left right first second =>
      rw [operands, if_pos rfl] at summands
      rw [total] at exact
      obtain ⟨v, fragments, runs, folds, reads⟩ :=
        first (fun o inside => summands o (List.mem_append_left _ inside)) (by omega)
      obtain ⟨w, fragments', runs', folds', reads'⟩ :=
        second (fun o inside => summands o (List.mem_append_right _ inside)) (by omega)
      refine ⟨v.add w, fragments ++ fragments', ?_, ?_, ?_⟩
      · simp [evaluate?, runs, runs']
      · rw [fold_sum, folds, folds']
        rfl
      · have numeric : left.isNumeric = v.isNumber := by simp [isNumeric, runs]
        have numeric' : right.isNumeric = w.isNumber := by simp [isNumeric, runs']
        rw [List.flatten_append, addsNumbers, numeric, numeric']
        exact reads.add reads'
  | case2 span operator left right other =>
      rw [operands, if_neg other] at summands
      cases summands _ (List.mem_singleton_self _)
  | case3 e leaf =>
      rw [operands.eq_2 e leaf] at summands
      have summand := summands e (List.mem_singleton_self e)
      cases e with
      | string span text =>
          exact ⟨.text text, [text], rfl, rfl, by simpa [addsNumbers] using Value.Read.text text⟩
      | number span value =>
          obtain ⟨n, whole⟩ := Option.isSome_iff_exists.1 summand
          have small : n < 2 ^ 53 := by simpa [total, whole] using exact
          refine ⟨.number n, [Text.ofNat n], by simp [evaluate?, whole], ?_, ?_⟩
          · rw [fold_leaf known rfl, foldLeaf, Number.format_of_whole whole small]
            rfl
          · simpa [addsNumbers] using Value.Read.number n
      | _ => cases summand

/-- **Folding a `+` agrees with running it exactly if it adds no numbers.**  For strings and whole
numbers, the sum of which is below `2 ^ 53`, folding always comes to a text, and it is the text of
the value unless some `+` has a number on both sides. -/
theorem fold_agrees_iff_adds_no_numbers (known : Bindings Text) {e : Expr}
    (summands : ∀ operand ∈ e.operands, operand.isSummand = true) (exact : e.total < 2 ^ 53) :
    ∃ v folded, e.evaluate? = some v ∧ fold known e = .ok folded ∧ folded.resolved = true ∧
      (folded.value = v.toText ↔ e.addsNumbers = false) := by
  obtain ⟨v, fragments, runs, folds, reads⟩ := exists_read known summands exact
  exact ⟨v, _, runs, folds, rfl, reads.eq_iff⟩

/-- `("v" + 1) + 2.0`. -/
def version : Expr :=
  .binary .unknown plus
    (.binary .unknown plus (.string .unknown "v") (.number .unknown (.integer 1)))
    (.number .unknown (.float (.finite false (Nat.pow 2 52) (-51))))

/-- Behind a string, numbers are joined in both. -/
theorem version_agrees :
    (∀ operand ∈ version.operands, operand.isSummand = true) ∧ version.total < 2 ^ 53 ∧
    version.evaluate? = some (.text "v12") ∧
    ∃ folded, fold .empty version = .ok folded ∧ folded.resolved = true ∧ folded.value = "v12" := by
  have summands : ∀ operand ∈ version.operands, operand.isSummand = true := by decide
  have small : version.total < 2 ^ 53 := by decide
  have runs : version.evaluate? = some (.text "v12") := by decide
  obtain ⟨v, folded, runs', folds, resolved, agrees⟩ :=
    fold_agrees_iff_adds_no_numbers .empty summands small
  cases runs.symm.trans runs'
  exact ⟨summands, small, runs, folded, folds, resolved, agrees.2 (by decide)⟩

/-- `(1 + 2) + "a"`. -/
def sumBeforeText : Expr :=
  .binary .unknown plus
    (.binary .unknown plus (.number .unknown (.integer 1)) (.number .unknown (.integer 2)))
    (.string .unknown "a")

/-- Running gives `3a`, and folding `12a`. -/
theorem sumBeforeText_differs :
    (∀ operand ∈ sumBeforeText.operands, operand.isSummand = true) ∧
    sumBeforeText.total < 2 ^ 53 ∧ sumBeforeText.evaluate? = some (.text "3a") ∧
    ∃ folded, fold .empty sumBeforeText = .ok folded ∧ folded.resolved = true ∧
      folded.value = "12a" :=
  ⟨by decide, by decide, by decide, _, rfl, rfl, rfl⟩

end Expr

end HiddenLoads
