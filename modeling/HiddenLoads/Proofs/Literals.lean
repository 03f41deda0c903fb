/-
# HiddenLoads.Proofs.Literals -- the literals that cannot be decoded or written

Two kinds of literals make the analysis fail.  Text that looks like hexadecimal digits is decoded
without another look, but the test lets a final line feed through and decoding drops an odd last
code point, whatever it is: after an odd number of digits the line feed stays behind half a pair
(`Hex.Uneven`).  And an integer of more than `Numeral.digitLimit` digits has no text
(`Number.Overlong`).  `Hex.decode_eq_error_iff` and `Number.format_eq_error_iff` say that there
are no others.
-/
import HiddenLoads.Literal.Hex
import HiddenLoads.Number
import HiddenLoads.Proofs.Digits

namespace HiddenLoads

set_option autoImplicit false

namespace Hex

/-- An odd number of hexadecimal digits, at least five, before a final line feed. -/
def Uneven (t : Text) : Prop :=
  ∃ digits : Text, t = digits ++ [0x0A] ∧ 4 ≤ digits.length ∧ digits.length % 2 = 1 ∧
    digits.all CodePoint.isHexDigit = true

theorem isSpace_of_isHexDigit {c : CodePoint} (digit : c.isHexDigit = true) :
    Numeral.isSpace c = false := by
  rw [CodePoint.isHexDigit, CodePoint.hexValue?] at digit
  simp only [Numeral.isSpace, Bool.or_eq_false_iff, Bool.and_eq_false_iff, decide_eq_false_iff_not]
  repeat' split at digit
  all_goals first | omega | cases digit

/-- A pair of digits in front does not decide whether a text can be decoded. -/
theorem isSome_octets?_pair {c d : CodePoint} (rest : Text) (high : c.isHexDigit = true)
    (low : d.isHexDigit = true) :
    (octets? (c :: d :: rest)).isSome = (octets? rest).isSome := by
  obtain ⟨h, isHigh⟩ := Option.isSome_iff_exists.1 high
  obtain ⟨l, isLow⟩ := Option.isSome_iff_exists.1 low
  rw [octets?, isSpace_of_isHexDigit high]
  simp only [Bool.false_eq_true, if_false, octet?, isHigh, isLow]
  cases octets? rest <;> rfl

/-- Digits are decoded exactly if they make up pairs. -/
theorem isSome_octets? {t : Text} (digits : t.all CodePoint.isHexDigit = true) :
    (octets? t).isSome = decide (t.length % 2 = 0) := by
  match t with
  | [] => rfl
  | [c] =>
      rw [List.all_cons, Bool.and_eq_true] at digits
      rw [octets?, isSpace_of_isHexDigit digits.1]
      rfl
  | c :: d :: rest =>
      simp only [List.all_cons, Bool.and_eq_true] at digits
      rw [isSome_octets?_pair rest digits.1 digits.2.1, isSome_octets? digits.2.2]
      simp only [List.length_cons, Nat.add_assoc, Nat.add_mod_right]

/-- A line feed behind the digits is passed over, but not behind half a pair. -/
theorem isSome_octets?_feed {t : Text} (digits : t.all CodePoint.isHexDigit = true) :
    (octets? (t ++ [0x0A])).isSome = decide (t.length % 2 = 0) := by
  match t with
  | [] => rfl
  | [c] =>
      rw [List.all_cons, Bool.and_eq_true] at digits
      rw [List.singleton_append, octets?, isSpace_of_isHexDigit digits.1]
      have half : octet? c 0x0A = none := by
        rw [octet?]
        cases c.hexValue? <;> rfl
      simp [half]
  | c :: d :: rest =>
      simp only [List.all_cons, Bool.and_eq_true] at digits
      rw [List.cons_append, List.cons_append, isSome_octets?_pair _ digits.1 digits.2.1,
        isSome_octets?_feed digits.2.2]
      simp only [List.length_cons, Nat.add_assoc, Nat.add_mod_right]

theorem decode_eq_error (t : Text) (f : Failure) :
    decode t = .error f ↔ f = .badHex ∧ (octets? (even t)).isSome = false := by
  rw [decode]
  cases octets? (even t) with
  | some bytes => simp
  | none => simp [eq_comm]

theorem all_even {t : Text} {p : CodePoint → Bool} (every : t.all p = true) :
    (even t).all p = true :=
  List.all_eq_true.2 fun c inside => List.all_eq_true.1 every c (List.mem_of_mem_take inside)

theorem even_of_even {t : Text} (pairs : t.length % 2 = 0) : even t = t := by
  rw [even, pairs, Nat.sub_zero, List.take_length]

/-- One more code point behind an even number is dropped. -/
theorem even_concat {t : Text} (pairs : t.length % 2 = 0) (c : CodePoint) :
    even (t ++ [c]) = t := by
  have length : (t ++ [c]).length = t.length + 1 := by simp
  rw [even, length, show t.length + 1 - (t.length + 1) % 2 = t.length by omega, List.take_left]

theorem not_isSome_even_feed {digits : Text} (long : 4 ≤ digits.length)
    (every : digits.all CodePoint.isHexDigit = true) :
    (octets? (even (digits ++ [0x0A]))).isSome = false ↔ Uneven (digits ++ [0x0A]) := by
  have length : (digits ++ [0x0A]).length = digits.length + 1 := by simp
  rcases Nat.mod_two_eq_zero_or_one digits.length with pairs | odd
  · -- The line feed is the odd code point that is dropped.
    rw [even_concat pairs, isSome_octets? every, pairs]
    refine ⟨fun fails => (nomatch fails), ?_⟩
    rintro ⟨digits', same, _, odd, _⟩
    rw [List.append_cancel_right same] at pairs
    omega
  · -- The digits and the line feed are an even number, and nothing is dropped.
    rw [even_of_even (by rw [length]; omega), isSome_octets?_feed every, odd]
    exact ⟨fun _ => ⟨digits, rfl, long, odd, every⟩, fun _ => rfl⟩

/-- What is taken for hexadecimal digits and cannot be decoded is an odd number of digits before
a line feed. -/
theorem decode_eq_error_iff {t : Text} (encoded : looksEncoded t = true) (f : Failure) :
    decode t = .error f ↔ f = .badHex ∧ Uneven t := by
  rw [decode_eq_error]
  refine and_congr_right fun _ => ?_
  rw [looksEncoded, Bool.and_eq_true, decide_eq_true_iff, withoutFinalFeed] at encoded
  by_cases feed : t.endsIn 0x0A = true
  · rw [if_pos feed] at encoded
    obtain ⟨digits, rfl⟩ := List.getLast?_eq_some_iff.1 (eq_of_beq feed)
    rw [List.dropLast_concat] at encoded
    exact not_isSome_even_feed encoded.1 encoded.2
  · -- Without a line feed nothing but digits is left, in pairs once an odd one is dropped.
    rw [if_neg feed] at encoded
    have paired : (octets? (even t)).isSome = true := by
      rw [isSome_octets? (all_even encoded.2), decide_eq_true_iff, even, List.length_take]
      omega
    refine ⟨fun fails => ?_, ?_⟩
    · rw [paired] at fails
      cases fails
    · rintro ⟨digits, rfl, _⟩
      simp [Text.endsIn] at feed

end Hex

namespace Number

/-- The number is an integer of more digits than are ever written. -/
def Overlong (n : Number) : Prop := ∃ i, n.toInt? = some i ∧ 10 ^ Numeral.digitLimit ≤ i.natAbs

theorem formatInt_eq_error_iff (i : Int) (f : Failure) :
    formatInt i = .error f ↔ f = .tooManyDigits ∧ 10 ^ Numeral.digitLimit ≤ i.natAbs := by
  have long : Numeral.digitLimit < (Text.ofNat i.natAbs).length ↔
      10 ^ Numeral.digitLimit ≤ i.natAbs := by
    rw [← Nat.not_le, Text.length_ofNat_le_iff (by decide), Nat.not_lt]
  rw [formatInt]
  split
  case isTrue exceeds => simp [long.1 exceeds, eq_comm]
  case isFalse fits => simp [mt long.2 fits]

/-- The numbers without a text are the overlong ones. -/
theorem format_eq_error_iff (n : Number) (f : Failure) :
    n.format = .error f ↔ f = .tooManyDigits ∧ n.Overlong := by
  rw [Overlong]
  cases n with
  | integer i => simp [format, toInt?, formatInt_eq_error_iff]
  | float x =>
      cases x with
      | nan => simp [format, toInt?, Binary64.toInt?]
      | infinite negative => simp [format, toInt?, Binary64.toInt?]
      | finite negative mantissa exponent =>
          simp only [format, toInt?]
          cases (Binary64.finite negative mantissa exponent).toInt? with
          | some i => simp [formatInt_eq_error_iff]
          | none => simp

end Number

end HiddenLoads
