/-
# HiddenLoads.Proofs.Octets -- what is written in UTF-8 is read back

The octets of a code point are one that begins the sequence and as many as that one announces
(`Utf8.encodePoint_eq`), each with six bits of the code point, the highest ones first
(`Utf8.trailing`).  While they are read, the bits so far are the code point without the bits that
are still owed, and the next octet lies between the bounds (`Utf8.Pending.Begins`).  The first octet
brings this about for every code point that is no surrogate (`Utf8.begins_of_lead`), one more octet
keeps it (`Utf8.Pending.Begins.push`), and the last one completes the code point.  So reading undoes
writing (`Utf8.decodeLossy_encode`), and nothing in the text is taken for an ill-formed part.
-/
import HiddenLoads.Proofs.Scalars
import Mathlib.Algebra.Group.Nat.Defs

namespace HiddenLoads

set_option autoImplicit false

namespace Utf8

/-! ## The octets of a code point -/

/-- The sextet of a number that `n` sextets follow, as an octet inside a sequence. -/
def sextetAt (v n : Nat) : UInt8 := (0x80 + v / 0x40 ^ n % 0x40).toUInt8

/-- The last `n` sextets of a number, each as an octet inside a sequence. -/
def trailing (v : Nat) : Nat → List UInt8
  | 0 => []
  | n + 1 => sextetAt v n :: trailing v n

/-- How many octets follow the first one of a code point. -/
def owedBy (v : Nat) : Nat :=
  if v < 0x80 then 0 else if v < 0x800 then 1 else if v < 0x10000 then 2 else 3

def leading (v : Nat) : UInt8 :=
  if v < 0x80 then v.toUInt8
  else if v < 0x800 then (0xC0 + v / 0x40).toUInt8
  else if v < 0x10000 then (0xE0 + v / 0x1000).toUInt8
  else (0xF0 + v / 0x40000).toUInt8

theorem encodePoint_eq (c : CodePoint) :
    encodePoint c = leading c.val :: trailing c.val (owedBy c.val) := by
  simp only [encodePoint, leading, owedBy]
  repeat' split
  all_goals simp [trailing, sextetAt]

theorem toNat_sextetAt (v n : Nat) : (sextetAt v n).toNat = 0x80 + v / 0x40 ^ n % 0x40 := by
  have small : v / 0x40 ^ n % 0x40 < 0x40 := Nat.mod_lt _ (by decide)
  rw [sextetAt, Nat.toUInt8, UInt8.toNat_ofNat']
  omega

/-! ## A sequence under way -/

/-- The sequence has the bits of a number, up to those that are still owed, and accepts the next
octet of it. -/
structure Pending.Begins (p : Pending) (v : Nat) : Prop where
  owes : 0 < p.owed
  bits : p.bits = v / 0x40 ^ p.owed
  accepts : p.accepts (sextetAt v (p.owed - 1)) = true

theorem Pending.begins_of_bounds {p : Pending} {v n : Nat} (owes : p.owed = n + 1)
    (bits : p.bits = v / 0x40 ^ (n + 1)) (least : p.least ≤ 0x80 + v / 0x40 ^ n % 0x40)
    (greatest : 0x80 + v / 0x40 ^ n % 0x40 ≤ p.greatest) : p.Begins v where
  owes := by omega
  bits := by rw [bits, owes]
  accepts := by
    rw [owes, Nat.add_sub_cancel, Pending.accepts, toNat_sextetAt]
    simp [least, greatest]

theorem Pending.push_sextetAt {p : Pending} {v n : Nat} (bits : p.bits = v / 0x40 ^ (n + 1)) :
    (p.push (sextetAt v n)).bits = v / 0x40 ^ n := by
  have shifted : v / 0x40 ^ (n + 1) = v / 0x40 ^ n / 0x40 := by
    rw [Nat.pow_succ, Nat.div_div_eq_div_mul]
  rw [push, toNat_sextetAt, bits, shifted]
  show v / 0x40 ^ n / 0x40 * 0x40 + (0x80 + v / 0x40 ^ n % 0x40) % 0x40 = v / 0x40 ^ n
  omega

theorem Pending.owed_push (p : Pending) (b : UInt8) : (p.push b).owed = p.owed - 1 := rfl

/-- One more octet of the number, but not the last. -/
theorem Pending.Begins.push {p : Pending} {v n : Nat} (begins : p.Begins v)
    (owes : p.owed = n + 2) : (p.push (sextetAt v (n + 1))).Begins v := by
  have owed : (p.push (sextetAt v (n + 1))).owed = n + 1 := by rw [owed_push, owes]; rfl
  have small : v / 0x40 ^ n % 0x40 < 0x40 := Nat.mod_lt _ (by decide)
  refine begins_of_bounds owed (push_sextetAt (by rw [begins.bits, owes])) ?_ ?_
  · show 0x80 ≤ 0x80 + v / 0x40 ^ n % 0x40
    omega
  · show 0x80 + v / 0x40 ^ n % 0x40 ≤ 0xBF
    omega

/-- The rest of a sequence completes its code point. -/
theorem Pending.Begins.scan {p : Pending} {c : CodePoint} (begins : p.Begins c.val)
    (rest : List UInt8) :
    scan (some p) (trailing c.val p.owed ++ rest) = some c :: scan none rest := by
  obtain ⟨n, owes⟩ : ∃ n, p.owed = n + 1 := ⟨p.owed - 1, by have := begins.owes; omega⟩
  have accepts := begins.accepts
  rw [owes, Nat.add_sub_cancel] at accepts
  induction n generalizing p with
  | zero =>
      have whole : (p.push (sextetAt c.val 0)).bits = c.val := by
        rw [push_sextetAt (by rw [begins.bits, owes]), Nat.pow_zero, Nat.div_one]
      rw [owes, trailing, trailing, List.cons_append, Utf8.scan, if_pos accepts, if_pos owes, whole,
        CodePoint.ofNat?, dif_pos c.isLt]
      rfl
  | succ n ih =>
      have more : p.owed ≠ 1 := by omega
      have still : (p.push (sextetAt c.val (n + 1))).owed = n + 1 := by rw [owed_push, owes]; rfl
      have next := begins.push owes
      have completes := ih next still (by simpa [still] using next.accepts)
      rw [still] at completes
      rw [owes, trailing, List.cons_append, Utf8.scan, if_pos accepts, if_neg more, completes]

/-! ## The first octet -/

theorem lead_of_ascii {c : CodePoint} (ascii : c.val < 0x80) :
    lead (leading c.val) = .single c := by
  have value : (leading c.val).toNat = c.val := by
    rw [leading, if_pos ascii, Nat.toUInt8, UInt8.toNat_ofNat']
    omega
  simp only [lead, value, dif_pos ascii]

/-- The first octet of a code point that is no surrogate announces the others. -/
theorem begins_of_lead {c : CodePoint} (plain : c.isSurrogate = false) (long : 0x80 ≤ c.val) :
    ∃ p, lead (leading c.val) = .opens p ∧ p.owed = owedBy c.val ∧ p.Begins c.val := by
  rw [CodePoint.isSurrogate_eq_false_iff] at plain
  have bound : c.val < 0x110000 := c.isLt
  by_cases two : c.val < 0x800
  · have value : (leading c.val).toNat = 0xC0 + c.val / 0x40 := by
      rw [leading, if_neg (by omega), if_pos two, Nat.toUInt8, UInt8.toNat_ofNat']
      omega
    refine ⟨_, lead_two value (by omega) (by omega), ?_, ?_⟩
    · show 1 = owedBy c.val
      rw [owedBy, if_neg (by omega), if_pos two]
    · exact Pending.begins_of_bounds rfl rfl (by simp only; omega) (by simp only; omega)
  by_cases three : c.val < 0x10000
  · have value : (leading c.val).toNat = 0xE0 + c.val / 0x1000 := by
      rw [leading, if_neg (by omega), if_neg two, if_pos three, Nat.toUInt8, UInt8.toNat_ofNat']
      omega
    refine ⟨_, lead_three value (by omega), ?_, ?_⟩
    · show 2 = owedBy c.val
      rw [owedBy, if_neg (by omega), if_neg two, if_pos three]
    · exact Pending.begins_of_bounds rfl rfl (by simp only; split <;> omega)
        (by simp only; split <;> omega)
  · have value : (leading c.val).toNat = 0xF0 + c.val / 0x40000 := by
      rw [leading, if_neg (by omega), if_neg two, if_neg three, Nat.toUInt8, UInt8.toNat_ofNat']
      omega
    refine ⟨_, lead_four value (by omega), ?_, ?_⟩
    · show 3 = owedBy c.val
      rw [owedBy, if_neg (by omega), if_neg two, if_neg three]
    · exact Pending.begins_of_bounds rfl rfl (by simp only; split <;> omega)
        (by simp only; split <;> omega)

/-! ## Reading back -/

theorem scan_encodePoint {c : CodePoint} (plain : c.isSurrogate = false) (rest : List UInt8) :
    scan none (encodePoint c ++ rest) = some c :: scan none rest := by
  rw [encodePoint_eq, List.cons_append, scan]
  by_cases ascii : c.val < 0x80
  · rw [lead_of_ascii ascii, owedBy, if_pos ascii]
    rfl
  · obtain ⟨p, opens, owed, begins⟩ := begins_of_lead plain (by omega)
    rw [opens, ← owed]
    exact begins.scan rest

theorem scan_encode {t : Text} (scalar : t.IsScalar) : scan none (encode t) = t.map some := by
  induction t with
  | nil => rfl
  | cons c t ih =>
      obtain ⟨plain, scalar⟩ := Text.isScalar_cons.1 scalar
      rw [encode, List.flatMap_cons, scan_encodePoint plain, ← encode, ih scalar, List.map_cons]

/-- Reading undoes writing. -/
theorem decodeLossy_encode {t : Text} (scalar : t.IsScalar) : decodeLossy (encode t) = t := by
  rw [decodeLossy, scan_encode scalar, List.map_map]
  exact List.map_id t

end Utf8

end HiddenLoads
