/-
# HiddenLoads.Proofs.IntegerLiterals -- all spellings of an integer are read as it

`Numeral.Spells` lists the ways to write a natural number: in decimal without a zero in front, with
a letter that names the base, and in octal behind a zero.  A literal is such a spelling with
underscores in it and perhaps the mark of big integers behind it (`Number.IsLiteral`).

The ways are told apart by overlapping signs, so what stands in a spelling matters as much as how it
begins: its code points are digits and the letters of the bases, with values below 36 as digits,
and the mark of big integers is none of them (`Numeral.Spells.digit_of_mem`).
-/
import HiddenLoads.Number.Literal
import HiddenLoads.Proofs.Digits
import HiddenLoads.Proofs.Splitting

namespace HiddenLoads

set_option autoImplicit false

namespace Numeral

/-! ## Digits, and texts of digits and letters -/

/-- Digits are read as what they write. -/
theorem Writes.digits?_eq {base n : Nat} {digits : Text} (writes : Writes base n digits)
    (most : base ≤ 16) (nonempty : digits ≠ []) : digits? base digits = some n := by
  have reads : digits? base digits = digits.foldlM (fun n c => do
      let d ← c.hexValue?
      if d < base then some (n * base + d) else Option.none) 0 := by
    cases digits with
    | nil => exact absurd rfl nonempty
    | cons c digits => rfl
  rw [reads]
  -- A prefix may be empty, which is read as zero here although `digits?` refuses it.
  clear reads nonempty
  induction writes with
  | none => rfl
  | more _ small isDigit ih =>
      rw [List.foldlM_append, ih]
      simp [(CodePoint.hexValue?_eq_some_iff (by omega)).2 isDigit, small]

/-- A text of small letters, digits and the like is taken as it stands. -/
theorem plain?_of_forall {t : Text} (word : ∀ c ∈ t, 0x30 ≤ c.val ∧ c.val < 0x7F) :
    plain? t = some t := by
  have kept : t.mapM plainPoint? = some t := by
    induction t with
    | nil => rfl
    | cons c t ih =>
        obtain ⟨first, others⟩ := List.forall_mem_cons.1 word
        rw [List.mapM_cons, ih others, plainPoint?, if_pos first.2]
        rfl
  have solid (u : Text) (within : ∀ c ∈ u, c ∈ t) : u.dropWhile isSpace = u := by
    cases u with
    | nil => rfl
    | cons c u =>
        have low := word c (within c List.mem_cons_self)
        refine List.dropWhile_cons_of_neg ?_
        simp only [isSpace, Bool.or_eq_true, Bool.and_eq_true, decide_eq_true_eq]
        omega
  rw [plain?, kept, Option.map_some, trim, solid t fun _ => id,
    solid t.reverse fun _ => List.mem_reverse.1, List.reverse_reverse]

/-! ## Spellings -/

inductive Letter : Char → Nat → Prop
  | hexadecimal : Letter 'x' 16
  | octal : Letter 'o' 8
  | binary : Letter 'b' 2

/-- The text spells a number: in decimal without a zero in front of other digits, behind a zero and
the letter of a base, or in octal behind a zero. -/
inductive Spells (n : Nat) : Text → Prop
  | decimal {digits : Text} (writes : Writes 10 n digits) (nonempty : digits ≠ [])
      (lead : digits.beginsIn '0' = true → digits.length = 1) : Spells n digits
  | based {letter : Char} {base : Nat} {mark : CodePoint} {digits : Text}
      (names : Letter letter base) (either : mark.asciiLower = CodePoint.ofChar letter)
      (writes : Writes base n digits) (nonempty : digits ≠ []) :
      Spells n (CodePoint.ofChar '0' :: mark :: digits)
  | octal {digits : Text} (writes : Writes 8 n digits) (nonempty : digits ≠ []) :
      Spells n (CodePoint.ofChar '0' :: digits)

/-- The second text is the first one with underscores put in. -/
inductive Spaced : Text → Text → Prop
  | none : Spaced [] []
  | keep (c : CodePoint) {t u : Text} (rest : Spaced t u) : Spaced (c :: t) (c :: u)
  | underscore {t u : Text} (rest : Spaced t u) : Spaced t (CodePoint.ofChar '_' :: u)

/-- The code points of a spelling are digits and letters, but not the mark of big integers, whose
value as a digit is 23. -/
theorem Spells.digit_of_mem {n : Nat} {spelling : Text} (spells : Spells n spelling)
    {c : CodePoint} (inside : c ∈ spelling) : ∃ d, d < 36 ∧ d ≠ 23 ∧ c.IsDigit d := by
  have zero : ∃ d, d < 36 ∧ d ≠ 23 ∧ (CodePoint.ofChar '0').IsDigit d := ⟨0, by decide⟩
  have digit {base : Nat} {digits : Text} (writes : Writes base n digits) (most : base ≤ 16)
      (inside : c ∈ digits) : ∃ d, d < 36 ∧ d ≠ 23 ∧ c.IsDigit d := by
    obtain ⟨d, small, isDigit⟩ := writes.digit_of_mem inside
    exact ⟨d, by omega, by omega, isDigit⟩
  cases spells with
  | decimal writes => exact digit writes (by decide) inside
  | based names either writes =>
      rcases List.mem_cons.1 inside with rfl | inside
      · exact zero
      rcases List.mem_cons.1 inside with rfl | inside
      · cases names with
        | hexadecimal => exact ⟨33, by decide, by decide, either⟩
        | octal => exact ⟨24, by decide, by decide, either⟩
        | binary => exact ⟨11, by decide, by decide, either⟩
      · cases names <;> exact digit writes (by decide) inside
  | octal writes =>
      rcases List.mem_cons.1 inside with rfl | inside
      · exact zero
      · exact digit writes (by decide) inside

/-- In small letters a spelling is a text of digits and small letters. -/
theorem Spells.val_of_mem {n : Nat} {spelling : Text} (spells : Spells n spelling)
    {c : CodePoint} (inside : c ∈ spelling) :
    0x30 ≤ c.asciiLower.val ∧ c.asciiLower.val < 0x7F ∧ c.asciiLower.val ≠ 0x5F ∧
      c.asciiLower.val ≠ 0x6E := by
  obtain ⟨d, small, other, isDigit⟩ := spells.digit_of_mem inside
  rw [isDigit, CodePoint.val_ofDigit small]
  split <;> omega

theorem Spaced.filter_eq {t u : Text} (spaced : Spaced t u) (free : CodePoint.ofChar '_' ∉ t) :
    u.filter (· ≠ CodePoint.ofChar '_') = t := by
  induction spaced with
  | none => rfl
  | keep c _ ih =>
      simp only [List.mem_cons, not_or] at free
      rw [List.filter_cons_of_pos (by simpa using Ne.symm free.1), ih free.2]
  | underscore _ ih =>
      rw [List.filter_cons_of_neg (by simp), ih free]

end Numeral

namespace Number

open Numeral

/-- The text is a literal of the number: a spelling with underscores in it, and perhaps the mark of
big integers behind it. -/
inductive IsLiteral (n : Nat) : Text → Prop
  | plain {spelling raw : Text} (spells : Spells n spelling) (spaced : Spaced spelling raw) :
      IsLiteral n raw
  | big {spelling raw : Text} {mark : CodePoint} (spells : Spells n spelling)
      (spaced : Spaced spelling raw) (isMark : mark.asciiLower = CodePoint.ofChar 'n') :
      IsLiteral n (raw ++ [mark])

/-- What is left of a literal is a spelling in small letters. -/
theorem bareLiteral_of_isLiteral {n : Nat} {raw : Text} (literal : IsLiteral n raw) :
    ∃ spelling, Spells n spelling ∧ bareLiteral raw = spelling.map CodePoint.asciiLower := by
  have free {spelling : Text} (spells : Spells n spelling) : CodePoint.ofChar '_' ∉ spelling :=
    fun inside => (spells.val_of_mem inside).2.2.1 (by decide)
  cases literal with
  | @plain spelling raw spells spaced =>
      refine ⟨spelling, spells, ?_⟩
      -- Nothing at the end of a bare spelling can be taken for the mark.
      have ends : Text.endsIn 'n' (spelling.map CodePoint.asciiLower) = false := by
        rw [Text.endsIn, beq_eq_false_iff_ne]
        intro last
        obtain ⟨c, inside, isMark⟩ := List.mem_map.1 (List.mem_of_getLast? last)
        exact (spells.val_of_mem inside).2.2.2 (congrArg Fin.val isMark)
      simp only [bareLiteral, spaced.filter_eq (free spells), ends]
      rfl
  | @big spelling raw mark spells spaced isMark =>
      refine ⟨spelling, spells, ?_⟩
      have other : mark ≠ CodePoint.ofChar '_' := by
        rintro rfl
        exact absurd isMark (by decide)
      have kept : (raw ++ [mark]).filter (· ≠ CodePoint.ofChar '_') = spelling ++ [mark] := by
        rw [List.filter_append, spaced.filter_eq (free spells),
          List.filter_cons_of_pos (by simpa using other), List.filter_nil]
      have ends : Text.endsIn 'n' (spelling.map CodePoint.asciiLower ++ [CodePoint.ofChar 'n']) := by
        rw [Text.endsIn, List.getLast?_concat, beq_self_eq_true]
      simp only [bareLiteral, kept, List.map_append, List.map_singleton, isMark, ends, if_true,
        List.dropLast_concat]

/-! ## Reading a spelling -/

/-- Digits alone name no base. -/
theorem namesBase_of_forall {t : Text} (low : ∀ c ∈ t, c.val ≤ 0x39) : namesBase t = false := by
  have none (word : String) (letter : Char) (inside : CodePoint.ofChar letter ∈ Text.ofString word)
      (high : 0x39 < (CodePoint.ofChar letter).val) :
      (Text.ofString word).isPrefixOf t = false := by
    rw [Bool.eq_false_iff, ne_eq, List.isPrefixOf_iff_prefix]
    intro starts
    exact absurd (low _ (starts.subset inside)) (Nat.not_le.2 high)
  rw [namesBase, none "0x" 'x' (by decide) (by decide), none "0o" 'o' (by decide) (by decide),
    none "0b" 'b' (by decide) (by decide)]
  rfl

/-- Digits behind a zero and the letter of their base are read in it. -/
theorem ofLiteral?_of_letter {raw digits : Text} {letter : Char} {base n : Nat}
    (bare : bareLiteral raw = CodePoint.ofChar '0' :: CodePoint.ofChar letter :: digits)
    (names : Letter letter base) (writes : Writes base n digits) (nonempty : digits ≠ [])
    (word : ∀ c ∈ bareLiteral raw, 0x30 ≤ c.val ∧ c.val < 0x7F) :
    ofLiteral? raw = some (.integer n) := by
  rw [bare] at word
  have named : namesBase (bareLiteral raw) = true := by
    rw [bare]
    cases names <;> rfl
  have reads : based? (bareLiteral raw) = some n := by
    rw [bare, based?, plain?_of_forall word]
    cases names <;> exact writes.digits?_eq (by decide) nonempty
  rw [ofLiteral?, if_pos named, reads]
  rfl

/-- Octal digits behind a zero are read as such. -/
theorem ofLiteral?_of_octal {raw digits : Text} {n : Nat}
    (bare : bareLiteral raw = CodePoint.ofChar '0' :: digits) (writes : Writes 8 n digits)
    (nonempty : digits ≠ []) : ofLiteral? raw = some (.integer n) := by
  have writes := writes.zero_cons (by decide)
  rw [← bare] at writes
  have plain : namesBase (bareLiteral raw) = false :=
    namesBase_of_forall fun c inside => (writes.val_of_mem (by decide) inside).2
  have octal : (bareLiteral raw).all CodePoint.isOctalDigit = true := by
    rw [List.all_eq_true]
    intro c inside
    obtain ⟨d, small, isDigit⟩ := writes.digit_of_mem inside
    exact isDigit.isOctalDigit small
  have legacy : isLegacyOctal (bareLiteral raw) = true := by
    rw [isLegacyOctal, octal, bare]
    simp [Text.beginsIn, List.length_pos_iff.2 nonempty]
  rw [ofLiteral?, if_neg (by simp [plain]), if_pos legacy,
    writes.digits?_eq (by decide) (by simp [bare])]
  rfl

/-- Decimal digits are read as an integer, as long as there are not too many. -/
theorem integer?_of_writes {n : Nat} {digits : Text} (writes : Writes 10 n digits)
    (nonempty : digits ≠ []) (short : digits.length ≤ digitLimit) :
    integer? digits = some (n : Int) := by
  have word : ∀ c ∈ digits, 0x30 ≤ c.val ∧ c.val ≤ 0x39 := fun c => writes.val_of_mem (by decide)
  have reads : plain? digits = some digits := by
    refine plain?_of_forall fun c inside => ⟨(word c inside).1, ?_⟩
    exact Nat.lt_of_le_of_lt (word c inside).2 (by decide)
  have unsigned : sign digits = (false, digits) := by
    cases digits with
    | nil => rfl
    | cons c digits =>
        have low := (word c List.mem_cons_self).1
        rw [sign, if_neg, if_neg]
        · rintro rfl
          exact absurd low (by decide)
        · rintro rfl
          exact absurd low (by decide)
  have whole : joined? digits = some digits := by
    have free : CodePoint.ofChar '_' ∉ digits := fun inside =>
      absurd (word _ inside).2 (by decide)
    simp [joined?, Text.splitOn_of_not_mem free, nonempty]
  rw [integer?, reads]
  simp [unsigned, whole, Nat.not_lt.2 short, writes.digits?_eq (by decide) nonempty, signed]

/-- Decimal digits without a zero in front are read as such. -/
theorem ofLiteral?_of_decimal {raw : Text} {n : Nat} (writes : Writes 10 n (bareLiteral raw))
    (nonempty : bareLiteral raw ≠ [])
    (lead : (bareLiteral raw).beginsIn '0' = true → (bareLiteral raw).length = 1)
    (short : (Text.ofNat n).length ≤ digitLimit) : ofLiteral? raw = some (.integer n) := by
  have plain : namesBase (bareLiteral raw) = false :=
    namesBase_of_forall fun c inside => (writes.val_of_mem (by decide) inside).2
  have modern : isLegacyOctal (bareLiteral raw) = false := by
    rw [Bool.eq_false_iff]
    intro legacy
    simp only [isLegacyOctal, Bool.and_eq_true, decide_eq_true_eq] at legacy
    have single := lead legacy.1.2
    omega
  have free (mark : CodePoint) (other : ¬ (0x30 ≤ mark.val ∧ mark.val ≤ 0x39)) :
      (bareLiteral raw).contains mark = false := by
    rw [Bool.eq_false_iff, ne_eq, List.contains_iff_mem]
    exact fun inside => other (writes.val_of_mem (by decide) inside)
  -- The only decimal spelling that begins in a zero is the zero itself.
  have few : (bareLiteral raw).length ≤ digitLimit := by
    cases first : (bareLiteral raw).beginsIn '0' with
    | true => exact Nat.le_trans (Nat.le_of_eq (lead first)) (by decide)
    | false => exact Nat.le_trans (Nat.le_of_eq (writes.length_eq nonempty first).2) short
  rw [ofLiteral?, if_neg (by simp [plain]), if_neg (by simp [modern]),
    free '.' (by decide), free 'e' (by decide), integer?_of_writes writes nonempty few]
  rfl

/-- **Every literal of a natural number is read as it**, whichever way it is spelled, wherever
underscores stand in it, and with or without the mark of big integers. -/
theorem ofLiteral?_of_isLiteral {n : Nat} {raw : Text} (literal : IsLiteral n raw)
    (short : (Text.ofNat n).length ≤ digitLimit) : ofLiteral? raw = some (.integer n) := by
  obtain ⟨spelling, spells, bare⟩ := bareLiteral_of_isLiteral literal
  have word : ∀ c ∈ bareLiteral raw, 0x30 ≤ c.val ∧ c.val < 0x7F := by
    rw [bare, List.forall_mem_map]
    exact fun c inside => ⟨(spells.val_of_mem inside).1, (spells.val_of_mem inside).2.1⟩
  cases spells with
  | decimal writes nonempty lead =>
      rw [writes.map_asciiLower_eq (by decide)] at bare
      subst bare
      exact ofLiteral?_of_decimal writes nonempty lead short
  | based names either writes nonempty =>
      rw [List.map_cons, List.map_cons, either] at bare
      exact ofLiteral?_of_letter bare names writes.map_asciiLower
        (mt List.map_eq_nil_iff.1 nonempty) word
  | octal writes nonempty =>
      rw [List.map_cons, writes.map_asciiLower_eq (by decide)] at bare
      exact ofLiteral?_of_octal bare writes nonempty

/-- The big integer 255 in hexadecimal, with a zero in front, letters of both cases and an
underscore. -/
theorem mixedHexadecimal_read :
    IsLiteral 255 "0X0f_Fn" ∧ (Text.ofNat 255).length ≤ digitLimit ∧
      ofLiteral? "0X0f_Fn" = some (.integer 255) := by
  have writes : Writes 16 (((0 * 16 + 0) * 16 + 15) * 16 + 15) (Text.ofString "0fF") :=
    .more (.more (.more .none (by decide) (by decide : CodePoint.IsDigit '0' 0)) (by decide)
      (by decide : CodePoint.IsDigit 'f' 15)) (by decide) (by decide : CodePoint.IsDigit 'F' 15)
  have spaced : Spaced (Text.ofString "0X0fF") (Text.ofString "0X0f_F") :=
    .keep _ (.keep _ (.keep _ (.keep _ (.underscore (.keep _ .none)))))
  have spells : Spells 255 (Text.ofString "0X0fF") :=
    .based .hexadecimal (by decide : CodePoint.asciiLower 'X' = _) writes (by decide)
  have literal : IsLiteral 255 (Text.ofString "0X0f_Fn") :=
    .big spells spaced (by decide : CodePoint.asciiLower 'n' = _)
  exact ⟨literal, by decide, ofLiteral?_of_isLiteral literal (by decide)⟩

end Number

end HiddenLoads
