/-
# HiddenLoads.Proofs.Digits -- the numbers that digits write

A digit is `0` to `9` or a letter from `a` on, and a letter may be a capital
(`CodePoint.IsDigit`).  `Numeral.Writes` says which number a row of digits writes in a base: every
digit behind the others multiplies what they write by the base and adds its own value, so zeros in
front change nothing (`Numeral.Writes.zero_cons`), and without one in front a number has a decimal
text of as many digits (`Numeral.Writes.length_eq`).  The relation is said without the functions
that read digits; `CodePoint.hexValue?_eq_some_iff` ties it to them.
-/
import HiddenLoads.Text
import Mathlib.Algebra.Group.Nat.Defs

namespace HiddenLoads

set_option autoImplicit false

namespace CodePoint

def IsDigit (c : CodePoint) (n : Nat) : Prop := c.asciiLower = ofDigit n

instance (c : CodePoint) (n : Nat) : Decidable (c.IsDigit n) :=
  inferInstanceAs (Decidable (c.asciiLower = ofDigit n))

theorem val_asciiLower (c : CodePoint) :
    c.asciiLower.val = if 0x41 ≤ c.val ∧ c.val ≤ 0x5A then c.val + 0x20 else c.val := by
  rw [asciiLower]
  split <;> simp [*]

theorem val_ofDigit {n : Nat} (small : n < 36) :
    (ofDigit n).val = if n < 10 then n + 0x30 else n + 0x57 := by
  by_cases few : n < 10
  · rw [ofDigit, dif_pos few, if_pos few]
  · rw [ofDigit, dif_neg few, dif_pos small, if_neg few]

/-- The digits below sixteen are the hexadecimal ones, with their values. -/
theorem hexValue?_eq_some_iff {c : CodePoint} {n : Nat} (small : n < 16) :
    c.hexValue? = some n ↔ c.IsDigit n := by
  rw [IsDigit, Fin.ext_iff, val_asciiLower, val_ofDigit (by omega), hexValue?]
  repeat' split
  all_goals simp only [Option.some.injEq, reduceCtorEq, false_iff]
  all_goals omega

theorem IsDigit.isHexDigit {c : CodePoint} {n : Nat} (isDigit : c.IsDigit n) (small : n < 16) :
    c.isHexDigit = true := by
  rw [CodePoint.isHexDigit, (hexValue?_eq_some_iff small).2 isDigit]
  rfl

theorem IsDigit.val_eq {c : CodePoint} {n : Nat} (isDigit : c.IsDigit n) (small : n < 10) :
    c.val = n + 0x30 := by
  rw [IsDigit, Fin.ext_iff, val_asciiLower, val_ofDigit (by omega), if_pos small] at isDigit
  split at isDigit <;> omega

/-- The digits below eight are the octal ones. -/
theorem IsDigit.isOctalDigit {c : CodePoint} {n : Nat} (isDigit : c.IsDigit n) (small : n < 8) :
    c.isOctalDigit = true := by
  have value := isDigit.val_eq (by omega)
  rw [CodePoint.isOctalDigit, Bool.and_eq_true, decide_eq_true_eq, decide_eq_true_eq]
  omega

theorem asciiLower_asciiLower (c : CodePoint) : c.asciiLower.asciiLower = c.asciiLower := by
  rw [Fin.ext_iff, val_asciiLower, val_asciiLower]
  repeat' split
  all_goals omega

theorem IsDigit.asciiLower {c : CodePoint} {n : Nat} (isDigit : c.IsDigit n) :
    c.asciiLower.IsDigit n :=
  (asciiLower_asciiLower c).trans isDigit

/-- The digits below ten have no other case. -/
theorem IsDigit.asciiLower_eq {c : CodePoint} {n : Nat} (isDigit : c.IsDigit n) (small : n < 10) :
    c.asciiLower = c := by
  have value := isDigit.val_eq small
  rw [Fin.ext_iff, val_asciiLower, if_neg (by omega)]

end CodePoint

/-! ## Decimal texts -/

namespace Text

theorem length_ofNat_pos (n : Nat) : 0 < (ofNat n).length := by
  rw [ofNat, List.length_map]
  exact Nat.length_toDigits_pos

theorem length_ofNat_le_iff {n k : Nat} (positive : 0 < k) : (ofNat n).length ≤ k ↔ n < 10 ^ k := by
  rw [ofNat, List.length_map, Nat.length_toDigits_le_iff (by decide) positive]

theorem length_ofNat_of_lt {n : Nat} (small : n < 10) : (ofNat n).length = 1 := by
  rw [ofNat, Nat.toDigits_of_lt_base small]
  rfl

theorem length_ofNat_mul_add {n d : Nat} (positive : 0 < n) (small : d < 10) :
    (ofNat (n * 10 + d)).length = (ofNat n).length + 1 := by
  rw [Nat.mul_comm, ofNat, ← Nat.toDigits_append_toDigits (by decide) positive small,
    Nat.toDigits_of_lt_base small]
  simp [ofNat]

end Text

/-! ## Rows of digits -/

namespace Numeral

/-- The digits write the number in a base, the highest digit first. -/
inductive Writes (base : Nat) : Nat → Text → Prop
  | none : Writes base 0 []
  | more {n d : Nat} {digits : Text} {c : CodePoint} (before : Writes base n digits)
      (small : d < base) (isDigit : c.IsDigit d) : Writes base (n * base + d) (digits ++ [c])

section Writes

variable {base n : Nat} {digits : Text}

theorem Writes.digit_of_mem (writes : Writes base n digits) {c : CodePoint} (inside : c ∈ digits) :
    ∃ d, d < base ∧ c.IsDigit d := by
  induction writes with
  | none => cases inside
  | @more n d digits last _ small isDigit ih =>
      rcases List.mem_append.1 inside with inside | inside
      · exact ih inside
      · rw [List.mem_singleton.1 inside]
        exact ⟨d, small, isDigit⟩

theorem Writes.all_isHexDigit (writes : Writes base n digits) (most : base ≤ 16) :
    digits.all CodePoint.isHexDigit = true := by
  rw [List.all_eq_true]
  intro c inside
  obtain ⟨d, small, isDigit⟩ := writes.digit_of_mem inside
  exact isDigit.isHexDigit (by omega)

theorem Writes.map_asciiLower (writes : Writes base n digits) :
    Writes base n (digits.map CodePoint.asciiLower) := by
  induction writes with
  | none => exact .none
  | more _ small isDigit ih =>
      rw [List.map_append]
      exact .more ih small isDigit.asciiLower

theorem Writes.map_asciiLower_eq (writes : Writes base n digits) (few : base ≤ 10) :
    digits.map CodePoint.asciiLower = digits := by
  induction writes with
  | none => rfl
  | more _ small isDigit ih =>
      rw [List.map_append, ih, List.map_singleton, isDigit.asciiLower_eq (by omega)]

theorem Writes.val_of_mem (writes : Writes base n digits) (few : base ≤ 10) {c : CodePoint}
    (inside : c ∈ digits) : 0x30 ≤ c.val ∧ c.val ≤ 0x39 := by
  obtain ⟨d, small, isDigit⟩ := writes.digit_of_mem inside
  have value := isDigit.val_eq (by omega)
  omega

/-- A zero in front changes nothing. -/
theorem Writes.zero_cons (writes : Writes base n digits) (positive : 0 < base) :
    Writes base n (CodePoint.ofChar '0' :: digits) := by
  induction writes with
  | none =>
      have zero : Writes base (0 * base + 0) ([] ++ [CodePoint.ofChar '0']) :=
        .more .none positive (by decide)
      rwa [Nat.zero_mul] at zero
  | more _ small isDigit ih => exact .more ih small isDigit

end Writes

theorem Writes.eq_zero_of_nil {base n : Nat} (writes : Writes base n []) : n = 0 := by
  generalize isNil : ([] : Text) = digits at writes
  cases writes with
  | none => rfl
  | more => simp at isNil

/-- Without a zero in front there are as many digits as the number has. -/
theorem Writes.length_eq {n : Nat} {digits : Text} (writes : Writes 10 n digits)
    (nonempty : digits ≠ []) (lead : digits.beginsIn '0' = false) :
    0 < n ∧ digits.length = (Text.ofNat n).length := by
  induction writes with
  | none => exact absurd rfl nonempty
  | @more n d digits c before small isDigit ih =>
      cases digits with
      | nil =>
          have positive : d ≠ 0 := by
            rintro rfl
            have isZero : c = CodePoint.ofChar '0' := Fin.ext (isDigit.val_eq (by decide))
            rw [isZero] at lead
            exact absurd lead (by decide)
          rw [before.eq_zero_of_nil, Nat.zero_mul, Nat.zero_add, Text.length_ofNat_of_lt small]
          exact ⟨by omega, rfl⟩
      | cons first digits =>
          obtain ⟨positive, same⟩ := ih (List.cons_ne_nil _ _) lead
          rw [Text.length_ofNat_mul_add positive small, List.length_append, same]
          exact ⟨by omega, rfl⟩

end Numeral

end HiddenLoads
