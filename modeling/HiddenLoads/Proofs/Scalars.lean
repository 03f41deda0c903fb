/-
# HiddenLoads.Proofs.Scalars -- which texts hold no surrogate

UTF-8 carries exactly the texts without surrogates (`Text.isScalar_iff_encode?`).  Cutting, joining
and trimming bring in no code point that was not there, and the program's own words and the digits
of numbers are characters, of which none is a surrogate.

Two ways to make code points out of numbers are safe.  A sequence of octets that has been begun
(`Utf8.lead_cases`) can only end in code points of an interval (`Utf8.Pending.floor`,
`Utf8.Pending.ceiling`), which shrinks with every octet and never meets the surrogates
(`Utf8.decodeLossy_isScalar`).  A pair of 16-bit units stands for a code point behind them all, and
a unit of no pair is replaced (`Utf16.decodeLossy_isScalar`).  So whatever is decoded from octets or
from a string literal can be written again.
-/
import HiddenLoads.Literal.Base64
import HiddenLoads.Literal.Hex
import HiddenLoads.Literal.StringBody
import HiddenLoads.Number
import HiddenLoads.Path.Join
import HiddenLoads.Text.Blank

namespace HiddenLoads

set_option autoImplicit false

namespace CodePoint

theorem isSurrogate_iff {c : CodePoint} :
    c.isSurrogate = true ↔ 0xD800 ≤ c.val ∧ c.val < 0xE000 := by
  rw [isSurrogate, Bool.and_eq_true, decide_eq_true_eq, decide_eq_true_eq]

theorem isSurrogate_eq_false_iff {c : CodePoint} :
    c.isSurrogate = false ↔ c.val < 0xD800 ∨ 0xE000 ≤ c.val := by
  simp only [isSurrogate, Bool.and_eq_false_iff, decide_eq_false_iff_not]
  omega

/-- No character is a surrogate. -/
@[simp] theorem isSurrogate_ofChar (c : Char) : (ofChar c).isSurrogate = false := by
  rw [isSurrogate_eq_false_iff]
  have valid := c.valid
  simp only [UInt32.isValidChar, Nat.isValidChar] at valid
  show c.val.toNat < _ ∨ _ ≤ c.val.toNat
  omega

/-- No blank is a surrogate. -/
theorem isBlank_of_isSurrogate {c : CodePoint} (surrogate : c.isSurrogate = true) :
    c.isBlank = false := by
  rw [isSurrogate_iff] at surrogate
  simp only [isBlank, blankRanges, List.any_cons, List.any_nil, Bool.or_false, Bool.or_eq_false_iff,
    Bool.and_eq_false_iff, decide_eq_false_iff_not]
  omega

end CodePoint

/-! ## Cutting and joining -/

namespace Text

@[simp] theorem isScalar_nil : IsScalar [] := nofun

@[simp] theorem isScalar_cons {c : CodePoint} {t : Text} :
    IsScalar (c :: t) ↔ c.isSurrogate = false ∧ IsScalar t := List.forall_mem_cons

@[simp] theorem isScalar_append {t u : Text} : IsScalar (t ++ u) ↔ IsScalar t ∧ IsScalar u :=
  List.forall_mem_append

theorem IsScalar.of_subset {t u : Text} (scalar : IsScalar u) (among : t ⊆ u) : IsScalar t :=
  fun c inside => scalar c (among inside)

theorem isScalar_flatten {ts : List Text} (scalar : ∀ t ∈ ts, IsScalar t) :
    IsScalar ts.flatten := by
  intro c inside
  obtain ⟨t, isPart, inside⟩ := List.mem_flatten.1 inside
  exact scalar t isPart c inside

theorem isScalar_map_ofChar (cs : List Char) : IsScalar (cs.map CodePoint.ofChar) := by
  intro c inside
  obtain ⟨char, _, rfl⟩ := List.mem_map.1 inside
  exact CodePoint.isSurrogate_ofChar char

@[simp] theorem isScalar_ofString (s : String) : IsScalar (ofString s) := isScalar_map_ofChar _

@[simp] theorem isScalar_ofNat (n : Nat) : IsScalar (ofNat n) := isScalar_map_ofChar _

theorem isScalar_ofInt (n : Int) : IsScalar (ofInt n) := by
  cases n with
  | ofNat n => exact isScalar_ofNat n
  | negSucc n => simp [ofInt]

theorem isScalar_iff_any {t : Text} : t.IsScalar ↔ t.any CodePoint.isSurrogate = false := by
  simp [IsScalar]

/-- UTF-8 carries the texts without surrogates. -/
theorem isScalar_iff_encode? {t : Text} : t.IsScalar ↔ ∃ bytes, Utf8.encode? t = some bytes := by
  rw [isScalar_iff_any, Utf8.encode?]
  cases t.any CodePoint.isSurrogate <;> simp

theorem strip_subset (t : Text) : t.strip ⊆ t := by
  intro c inside
  rw [strip, stripRight, List.mem_reverse] at inside
  have kept := (List.dropWhile_sublist _).subset inside
  exact (List.dropWhile_sublist _).subset (List.mem_reverse.1 kept)

theorem isScalar_joinWith {mark : CodePoint} {parts : List Text}
    (plain : mark.isSurrogate = false) (scalar : ∀ part ∈ parts, IsScalar part) :
    IsScalar (joinWith mark parts) := by
  induction parts with
  | nil => exact isScalar_nil
  | cons part parts ih =>
      have first := scalar part List.mem_cons_self
      have rest := ih fun other inside => scalar other (List.mem_cons_of_mem part inside)
      cases parts with
      | nil => exact first
      | cons next parts => exact isScalar_append.2 ⟨first, isScalar_cons.2 ⟨plain, rest⟩⟩

theorem isScalar_of_mem_splitOn {mark : CodePoint} {t piece : Text} (scalar : IsScalar t)
    (isPiece : piece ∈ splitOn mark t) : IsScalar piece := by
  induction t generalizing piece with
  | nil =>
      rw [splitOn, List.mem_singleton] at isPiece
      exact isPiece ▸ isScalar_nil
  | cons c t ih =>
      obtain ⟨plain, scalar⟩ := isScalar_cons.1 scalar
      rw [splitOn] at isPiece
      split at isPiece
      · rcases List.mem_cons.1 isPiece with rfl | isPiece
        · exact isScalar_nil
        · exact ih scalar isPiece
      · cases pieces : splitOn mark t with
        | nil =>
            rw [pieces, List.mem_singleton] at isPiece
            simp [isPiece, plain]
        | cons first rest =>
            rw [pieces] at ih isPiece
            rcases List.mem_cons.1 isPiece with rfl | isPiece
            · exact isScalar_cons.2 ⟨plain, ih scalar List.mem_cons_self⟩
            · exact ih scalar (List.mem_cons_of_mem first isPiece)

end Text

open Text

/-! ## Paths -/

namespace Join

theorem push_isScalar {absolute : Bool} {path : List Text} {segment : Text}
    (scalar : ∀ s ∈ path, IsScalar s) (plain : IsScalar segment) :
    ∀ s ∈ push absolute path segment, IsScalar s := by
  unfold push
  split
  · exact scalar
  split
  · exact List.forall_mem_cons.2 ⟨plain, scalar⟩
  cases path with
  | nil => cases absolute <;> simp [up]
  | cons last before =>
      simp only
      split
      · exact List.forall_mem_cons.2 ⟨isScalar_ofString _, scalar⟩
      · exact (List.forall_mem_cons.1 scalar).2

theorem segments_isScalar (absolute : Bool) {t : Text} (scalar : IsScalar t) :
    ∀ s ∈ segments absolute t, IsScalar s := by
  have pieces : ∀ s ∈ t.splitOn '/', IsScalar s := fun s => isScalar_of_mem_splitOn scalar
  have pushed : ∀ (pieces path : List Text), (∀ s ∈ pieces, IsScalar s) →
      (∀ s ∈ path, IsScalar s) → ∀ s ∈ pieces.foldl (push absolute) path, IsScalar s := by
    intro pieces
    induction pieces with
    | nil => exact fun path _ scalar => scalar
    | cons piece pieces ih =>
        intro path plain scalar
        obtain ⟨first, plain⟩ := List.forall_mem_cons.1 plain
        exact ih _ plain (push_isScalar scalar first)
  intro s inside
  exact pushed _ [] pieces nofun s (List.mem_reverse.1 inside)

theorem normalize_isScalar {t : Text} (scalar : IsScalar t) : IsScalar (normalize t) := by
  have body (absolute : Bool) : IsScalar (joinWith slash (segments absolute t)) :=
    isScalar_joinWith (CodePoint.isSurrogate_ofChar '/') (segments_isScalar absolute scalar)
  have slashes : IsScalar (root t) := by
    unfold root
    repeat' split
    all_goals simp [slash]
  simp only [normalize]
  split
  · exact isScalar_ofString _
  · exact isScalar_append.2 ⟨slashes, body _⟩

theorem singleRoot_isScalar {t : Text} (scalar : IsScalar t) : IsScalar (singleRoot t) := by
  unfold singleRoot
  split
  · refine isScalar_cons.2 ⟨CodePoint.isSurrogate_ofChar '/', ?_⟩
    exact scalar.of_subset (List.dropWhile_sublist _).subset
  · exact scalar

/-- A path of parts without surrogates has none. -/
theorem path_isScalar {parts : List Text} (scalar : ∀ part ∈ parts, IsScalar part) :
    IsScalar (path parts) := by
  have joined : IsScalar (joinWith '/' (parts.filter (· ≠ []))) :=
    isScalar_joinWith (CodePoint.isSurrogate_ofChar '/') fun part inside =>
      scalar part (List.mem_filter.1 inside).1
  simp only [path]
  split
  · exact isScalar_ofString _
  · split
    · exact isScalar_append.2 ⟨singleRoot_isScalar (normalize_isScalar joined), by simp⟩
    · exact singleRoot_isScalar (normalize_isScalar joined)

end Join

/-! ## Numbers -/

theorem Binary64.layout_isScalar (d : Shortest.Decimal) : IsScalar (layout d) := by
  have digits : IsScalar (Text.ofNat d.coefficient) := isScalar_ofNat _
  have taken (n : Nat) : IsScalar ((Text.ofNat d.coefficient).take n) :=
    digits.of_subset (List.take_subset n _)
  have dropped (n : Nat) : IsScalar ((Text.ofNat d.coefficient).drop n) :=
    digits.of_subset (List.drop_subset n _)
  have tail : IsScalar (Text.ofNat d.coefficient).tail := by simpa using dropped 1
  have zeros (n : Nat) : IsScalar (List.replicate n (CodePoint.ofChar '0')) := by
    intro c inside
    rw [(List.mem_replicate.1 inside).2]
    exact CodePoint.isSurrogate_ofChar '0'
  have power (n : Nat) : IsScalar (twoDigits n) := by
    rw [twoDigits]
    split <;> simp
  simp only [layout]
  repeat' split
  all_goals simp [taken, dropped, tail, zeros, power]

theorem Binary64.toText_isScalar (x : Binary64) : IsScalar x.toText := by
  cases x with
  | nan => exact isScalar_ofString _
  | infinite negative => cases negative <;> exact isScalar_ofString _
  | finite negative mantissa exponent =>
      rw [toText, isScalar_append]
      refine ⟨?_, ?_⟩
      · split <;> simp
      · split
        · exact isScalar_ofString _
        · exact layout_isScalar _

/-- The text of a number has no surrogates. -/
theorem Number.format_isScalar {n : Number} {text : Text} (formats : n.format = .ok text) :
    IsScalar text := by
  have whole {i : Int} (formats : formatInt i = .ok text) : IsScalar text := by
    rw [formatInt] at formats
    split at formats <;> cases formats
    exact isScalar_ofInt i
  unfold format at formats
  split at formats
  · exact whole formats
  · cases formats
    exact isScalar_ofString _
  · cases formats
    split <;> exact isScalar_ofString _
  · split at formats
    · exact whole formats
    · cases formats
      exact Binary64.toText_isScalar _

/-! ## Octets -/

namespace Utf8

/-- How many code points share the bits that are known after the next octet. -/
def Pending.scale (p : Pending) : Nat := Nat.pow 0x40 (p.owed - 1)

def Pending.floor (p : Pending) : Nat := (p.bits * 0x40 + p.least % 0x40) * p.scale

def Pending.ceiling (p : Pending) : Nat := (p.bits * 0x40 + p.greatest % 0x40 + 1) * p.scale

/-- The sequence goes on with octets made for that, and does not end in a surrogate. -/
structure Pending.Clear (p : Pending) : Prop where
  least : 0x80 ≤ p.least
  greatest : p.greatest ≤ 0xBF
  clear : p.ceiling ≤ 0xD800 ∨ 0xE000 ≤ p.floor

/-- An octet that the sequence accepts lies between its bounds in the lower six bits, too. -/
theorem Pending.Clear.sextet {p : Pending} (clear : p.Clear) {b : UInt8}
    (accepts : p.accepts b = true) :
    p.least % 0x40 ≤ b.toNat % 0x40 ∧ b.toNat % 0x40 ≤ p.greatest % 0x40 := by
  obtain ⟨least, greatest, _⟩ := clear
  simp only [Pending.accepts, Bool.and_eq_true, decide_eq_true_eq] at accepts
  omega

/-- The last octet of a sequence. -/
theorem Pending.Clear.last {p : Pending} (clear : p.Clear) {b : UInt8}
    (accepts : p.accepts b = true) (ends : p.owed = 1) {c : CodePoint}
    (isLast : CodePoint.ofNat? (p.push b).bits = some c) : c.isSurrogate = false := by
  obtain ⟨low, high⟩ := clear.sextet accepts
  have interval := clear.clear
  simp only [ceiling, floor, scale, ends, Nat.sub_self, Nat.pow, Nat.mul_one] at interval
  rw [CodePoint.ofNat?, push] at isLast
  split at isLast <;> cases isLast
  rw [CodePoint.isSurrogate_eq_false_iff]
  simp only
  omega

/-- One more octet leaves a part of the interval. -/
theorem Pending.Clear.push {p : Pending} (clear : p.Clear) {b : UInt8}
    (accepts : p.accepts b = true) (more : 1 < p.owed) : (p.push b).Clear := by
  obtain ⟨low, high⟩ := clear.sextet accepts
  obtain ⟨owed, isOwed⟩ : ∃ n, p.owed = n + 2 := ⟨p.owed - 2, by omega⟩
  have scaled : p.scale = 0x40 * (p.push b).scale := by
    rw [scale, scale, Pending.push, isOwed]
    exact Nat.mul_comm _ _
  have floor : p.floor ≤ (p.push b).floor := by
    rw [Pending.floor, Pending.floor, scaled, ← Nat.mul_assoc]
    apply Nat.mul_le_mul_right
    simp only [Pending.push]
    omega
  have ceiling : (p.push b).ceiling ≤ p.ceiling := by
    rw [Pending.ceiling, Pending.ceiling, scaled, ← Nat.mul_assoc]
    apply Nat.mul_le_mul_right
    simp only [Pending.push]
    omega
  refine ⟨Nat.le_refl _, Nat.le_refl _, ?_⟩
  exact clear.clear.imp (Nat.le_trans ceiling) fun behind => Nat.le_trans behind floor

theorem lead_two {b : UInt8} {q : Nat} (value : b.toNat = 0xC0 + q) (shortest : 2 ≤ q)
    (small : q < 0x20) : lead b = .opens ⟨q, 1, 0x80, 0xBF⟩ := by
  simp only [lead, value]
  rw [dif_neg (by omega), if_neg (by omega), if_pos (by omega), Nat.add_sub_cancel_left]

/-- Of the sequences of three octets, one beginning leaves out what two octets can carry and one the
surrogates. -/
theorem lead_three {b : UInt8} {q : Nat} (value : b.toNat = 0xE0 + q) (small : q < 0x10) :
    lead b = .opens ⟨q, 2, if q = 0 then 0xA0 else 0x80, if q = 0xD then 0x9F else 0xBF⟩ := by
  simp only [lead, value]
  rw [dif_neg (by omega), if_neg (by omega), if_neg (by omega)]
  by_cases zero : q = 0
  · subst zero; rfl
  · by_cases surrogates : q = 0xD
    · subst surrogates; rfl
    · rw [if_neg (by omega), if_neg (by omega), if_pos (by omega), if_neg zero, if_neg surrogates,
        Nat.add_sub_cancel_left]

/-- Of the sequences of four octets, one beginning leaves out what three octets can carry and one
what is no code point. -/
theorem lead_four {b : UInt8} {q : Nat} (value : b.toNat = 0xF0 + q) (small : q < 5) :
    lead b = .opens ⟨q, 3, if q = 0 then 0x90 else 0x80, if q = 4 then 0x8F else 0xBF⟩ := by
  simp only [lead, value]
  rw [dif_neg (by omega), if_neg (by omega), if_neg (by omega), if_neg (by omega),
    if_neg (by omega), if_neg (by omega)]
  by_cases zero : q = 0
  · subst zero; rfl
  · by_cases last : q = 4
    · subst last; rfl
    · rw [if_neg (by omega), if_pos (by omega), if_neg zero, if_neg last, Nat.add_sub_cancel_left]

/-- What an octet can be at the beginning of a sequence. -/
theorem lead_cases (b : UInt8) :
    (∃ c, lead b = .single c ∧ c.val < 0x80) ∨ lead b = .invalid ∨
      (∃ q, q < 0x20 ∧ lead b = .opens ⟨q, 1, 0x80, 0xBF⟩) ∨
      (∃ q, q < 0x10 ∧
        lead b = .opens ⟨q, 2, if q = 0 then 0xA0 else 0x80, if q = 0xD then 0x9F else 0xBF⟩) ∨
      ∃ q, q < 5 ∧
        lead b = .opens ⟨q, 3, if q = 0 then 0x90 else 0x80, if q = 4 then 0x8F else 0xBF⟩ := by
  by_cases ascii : b.toNat < 0x80
  · exact .inl ⟨⟨b.toNat, by omega⟩, dif_pos ascii, ascii⟩
  by_cases inner : b.toNat < 0xC2
  · refine .inr (.inl ?_)
    simp only [lead]
    rw [dif_neg ascii, if_pos inner]
  by_cases two : b.toNat < 0xE0
  · exact .inr (.inr (.inl ⟨b.toNat - 0xC0, by omega, lead_two (by omega) (by omega) (by omega)⟩))
  by_cases three : b.toNat < 0xF0
  · exact .inr (.inr (.inr (.inl ⟨b.toNat - 0xE0, by omega, lead_three (by omega) (by omega)⟩)))
  by_cases four : b.toNat < 0xF5
  · exact .inr (.inr (.inr (.inr ⟨b.toNat - 0xF0, by omega, lead_four (by omega) (by omega)⟩)))
  · refine .inr (.inl ?_)
    simp only [lead]
    rw [dif_neg ascii, if_neg inner, if_neg two, if_neg (by omega), if_neg (by omega),
      if_neg three, if_neg (by omega), if_neg (by omega), if_neg (by omega)]

/-- No octet begins a sequence that ends in a surrogate. -/
theorem clear_of_lead {b : UInt8} {p : Pending} (opens : lead b = .opens p) :
    p.Clear ∧ 0 < p.owed := by
  have one : Nat.pow 0x40 (1 - 1) = 1 := rfl
  have two : Nat.pow 0x40 (2 - 1) = 0x40 := rfl
  have three : Nat.pow 0x40 (3 - 1) = 0x1000 := rfl
  rcases lead_cases b with
    ⟨c, single, _⟩ | invalid | ⟨q, small, begins⟩ | ⟨q, small, begins⟩ | ⟨q, small, begins⟩
  · cases single ▸ opens
  · cases invalid ▸ opens
  all_goals
    cases begins ▸ opens
    refine ⟨⟨?_, ?_, ?_⟩, Nat.succ_pos _⟩
    all_goals
      simp only [Pending.ceiling, Pending.floor, Pending.scale, one, two, three]
      repeat' split
      all_goals omega

theorem isSurrogate_of_single {b : UInt8} {c : CodePoint} (single : lead b = .single c) :
    c.isSurrogate = false := by
  rw [CodePoint.isSurrogate_eq_false_iff]
  rcases lead_cases b with
    ⟨d, isSingle, ascii⟩ | invalid | ⟨q, _, begins⟩ | ⟨q, _, begins⟩ | ⟨q, _, begins⟩
  · cases isSingle ▸ single
    omega
  · cases invalid ▸ single
  all_goals cases begins ▸ single

/-- An octet that starts afresh reads no surrogate, if the octets after it read none. -/
theorem scan_none_isScalar {b : UInt8} {rest : List UInt8}
    (after : ∀ pending : Option Pending, (∀ p ∈ pending, p.Clear ∧ 0 < p.owed) →
      ∀ c, some c ∈ scan pending rest → c.isSurrogate = false) :
    ∀ c, some c ∈ scan none (b :: rest) → c.isSurrogate = false := by
  intro c inside
  rw [scan] at inside
  split at inside
  case h_1 single =>
      rcases List.mem_cons.1 inside with same | inside
      · cases same
        exact isSurrogate_of_single single
      · exact after none (by simp) c inside
  case h_2 opens => exact after _ (by simpa using clear_of_lead opens) c inside
  case h_3 =>
      have later : some c ∈ scan none rest := by simpa using inside
      exact after none (by simp) c later

/-- What is read has no surrogates, whatever sequence is under way. -/
theorem scan_isScalar {pending : Option Pending} {bytes : List UInt8}
    (clear : ∀ p ∈ pending, p.Clear ∧ 0 < p.owed) :
    ∀ c, some c ∈ scan pending bytes → c.isSurrogate = false := by
  induction bytes generalizing pending with
  | nil => cases pending <;> simp [scan]
  | cons b rest ih =>
      have fresh := scan_none_isScalar (b := b) fun _ clear => ih clear
      cases pending with
      | none => exact fresh
      | some p =>
          obtain ⟨clear, owes⟩ := clear p rfl
          intro c inside
          rw [scan] at inside
          split at inside
          case isTrue accepts =>
              split at inside
              case isTrue ends =>
                  rcases List.mem_cons.1 inside with same | inside
                  · exact clear.last accepts ends same.symm
                  · exact ih (by simp) c inside
              case isFalse unfinished =>
                  have more : 1 < p.owed := by omega
                  have still : 0 < (p.push b).owed := Nat.sub_pos_of_lt more
                  exact ih (by simpa using ⟨clear.push accepts more, still⟩) c inside
          case isFalse =>
              -- The octet that cuts the sequence off is read again.
              exact fresh c (by simpa [scan] using inside)

/-- Octets are never read as surrogates. -/
theorem decodeLossy_isScalar (bytes : List UInt8) : IsScalar (decodeLossy bytes) := by
  intro c inside
  obtain ⟨read, isRead, rfl⟩ := List.mem_map.1 inside
  cases read with
  | none => decide
  | some c => exact scan_isScalar (by simp) c isRead

end Utf8

theorem Hex.decode_isScalar {digits text : Text} (decodes : decode digits = .ok text) :
    IsScalar text := by
  rw [decode] at decodes
  split at decodes <;> cases decodes
  exact Utf8.decodeLossy_isScalar _

theorem Base64.decode?_isScalar {payload text : Text} (decodes : decode? payload = some text) :
    IsScalar text := by
  obtain ⟨bytes, _, rfl⟩ := Option.map_eq_some_iff.1 decodes
  exact Utf8.decodeLossy_isScalar bytes

/-! ## Units of 16 bits -/

namespace Utf16

theorem isHigh_iff {u : UInt16} : isHigh u = true ↔ 0xD800 ≤ u.toNat ∧ u.toNat < 0xDC00 := by
  simp [isHigh, UInt16.le_iff_toNat_le, UInt16.lt_iff_toNat_lt]

theorem isLow_iff {u : UInt16} : isLow u = true ↔ 0xDC00 ≤ u.toNat ∧ u.toNat < 0xE000 := by
  simp [isLow, UInt16.le_iff_toNat_le, UInt16.lt_iff_toNat_lt]

theorem isSurrogate_pair (high low : UInt16) : (pair high low).isSurrogate = false := by
  rw [CodePoint.isSurrogate_eq_false_iff, pair]
  simp only
  omega

theorem isSurrogate_single (u : UInt16) : (single u).isSurrogate = false := by
  rw [single]
  split
  case isTrue => decide
  case isFalse plain =>
      rw [Bool.or_eq_true, isHigh_iff, isLow_iff] at plain
      rw [CodePoint.isSurrogate_eq_false_iff]
      simp only
      omega

theorem decodeLossy_isScalar (units : List UInt16) : IsScalar (decodeLossy units) := by
  fun_induction decodeLossy units with
  | case1 => exact isScalar_nil
  | case2 u => simp [isSurrogate_single]
  | case3 u v rest _ ih => exact isScalar_cons.2 ⟨isSurrogate_pair u v, ih⟩
  | case4 u v rest _ ih => exact isScalar_cons.2 ⟨isSurrogate_single u, ih⟩

end Utf16

theorem Text.mendSurrogates_isScalar (t : Text) : IsScalar t.mendSurrogates := by
  rw [mendSurrogates]
  split
  case isTrue =>
      rw [Utf16.decodeMarked_encodeMarked]
      exact Utf16.decodeLossy_isScalar _
  case isFalse clear => exact isScalar_iff_any.2 (Bool.not_eq_true _ ▸ clear)

/-- No string literal stands for a surrogate, whatever its escapes are. -/
theorem StringBody.decode_isScalar (body : Text) : IsScalar (decode body) :=
  mendSurrogates_isScalar _

end HiddenLoads
