/-
# HiddenLoads.Proofs.Encodings -- text hidden in hexadecimal digits or in base64 is recovered

Both decoders are said to undo an encoding of the octets of a text, and both accept more than one
payload for it.  Hexadecimal digits may be of either case, and one more digit may follow them
(`Hex.Spells`).  In base64 the two last digits of the alphabet have other forms, padding may be
missing, and anything outside the alphabet may stand anywhere (`Base64.Garbles`).

`Base64.encode` is the encoding itself, three octets at a time.  Cleaning and padding bring every
payload for some octets back to their encoding (`Base64.pad_clean_of_garbles`).  Reading padded digits
is putting their sextets together four by four (`Base64.read_pad`): padding ends what it should, and the
only fault left is one sextet too many (`Base64.octets?_eq_none_iff`).  The sextets of an encoding
give its octets (`Base64.octets?_sextets`), which are then read as UTF-8.
-/
import HiddenLoads.Proofs.Digits
import HiddenLoads.Proofs.Literals
import HiddenLoads.Proofs.Octets

namespace HiddenLoads

set_option autoImplicit false

/-! ## Hexadecimal digits -/

namespace Hex

/-- The digits spell the octets, two digits each, letters in either case. -/
inductive Spells : List UInt8 → Text → Prop
  | nil : Spells [] []
  | cons {b : UInt8} {bytes : List UInt8} {high low : CodePoint} {digits : Text}
      (isHigh : high.IsDigit (b.toNat / 16)) (isLow : low.IsDigit (b.toNat % 16))
      (more : Spells bytes digits) : Spells (b :: bytes) (high :: low :: digits)

theorem octet?_of_isDigit {b : UInt8} {high low : CodePoint} (isHigh : high.IsDigit (b.toNat / 16))
    (isLow : low.IsDigit (b.toNat % 16)) : octet? high low = some b := by
  have small : b.toNat < 256 := b.toNat_lt
  rw [octet?, (CodePoint.hexValue?_eq_some_iff (by omega)).2 isHigh,
    (CodePoint.hexValue?_eq_some_iff (by omega)).2 isLow]
  show some (b.toNat / 16 * 16 + b.toNat % 16).toUInt8 = some b
  rw [show b.toNat / 16 * 16 + b.toNat % 16 = b.toNat by omega]
  exact congrArg some UInt8.ofNat_toNat

theorem Spells.all_isHexDigit {bytes : List UInt8} {digits : Text} (spells : Spells bytes digits) :
    digits.all CodePoint.isHexDigit = true := by
  induction spells with
  | nil => rfl
  | @cons b bytes high low digits isHigh isLow _ ih =>
      have small : b.toNat < 256 := b.toNat_lt
      rw [List.all_cons, List.all_cons, isHigh.isHexDigit (by omega), isLow.isHexDigit (by omega),
        ih]
      rfl

theorem Spells.length_eq {bytes : List UInt8} {digits : Text} (spells : Spells bytes digits) :
    digits.length = 2 * bytes.length := by
  induction spells with
  | nil => rfl
  | cons _ _ _ ih => simp only [List.length_cons]; omega

theorem octets?_of_spells {bytes : List UInt8} {digits : Text} (spells : Spells bytes digits) :
    octets? digits = some bytes := by
  induction spells with
  | nil => rfl
  | @cons b bytes high low digits isHigh isLow _ ih =>
      have small : b.toNat < 256 := b.toNat_lt
      have noSpace := isSpace_of_isHexDigit (isHigh.isHexDigit (by omega))
      rw [octets?, noSpace, if_neg Bool.false_ne_true, octet?_of_isDigit isHigh isLow, ih]
      rfl

theorem looksEncoded_of_digits {t : Text} (every : t.all CodePoint.isHexDigit = true)
    (long : 4 ≤ t.length) : looksEncoded t = true := by
  have noFeed : ¬ t.endsIn 0x0A = true := by
    intro feed
    obtain ⟨digits, rfl⟩ := List.getLast?_eq_some_iff.1 (eq_of_beq feed)
    rw [List.all_append, Bool.and_eq_true] at every
    exact absurd every.2 (by decide)
  rw [looksEncoded, withoutFinalFeed, if_neg noFeed, every, decide_eq_true long]
  rfl

/-- Hexadecimal digits for the octets of a text are taken for encoded text and stand for it, and
so do they with one more digit. -/
theorem recovers_spelled {s digits : Text} (scalar : s.IsScalar)
    (long : 2 ≤ (Utf8.encode s).length) (spells : Spells (Utf8.encode s) digits) :
    (looksEncoded digits = true ∧ decode digits = .ok s) ∧
      ∀ (d : CodePoint) (n : Nat), n < 16 → d.IsDigit n →
        looksEncoded (digits ++ [d]) = true ∧ decode (digits ++ [d]) = .ok s := by
  have every := spells.all_isHexDigit
  have length := spells.length_eq
  have reads : octets? digits = some (Utf8.encode s) := octets?_of_spells spells
  refine ⟨⟨looksEncoded_of_digits every (by omega), ?_⟩, fun d n small isDigit => ⟨?_, ?_⟩⟩
  · rw [decode, even_of_even (by omega), reads]
    exact congrArg Except.ok (Utf8.decodeLossy_encode scalar)
  · refine looksEncoded_of_digits ?_ (by rw [List.length_append]; omega)
    rw [List.all_append, every, List.all_cons, isDigit.isHexDigit small]
    rfl
  · rw [decode, even_concat (by omega), reads]
    exact congrArg Except.ok (Utf8.decodeLossy_encode scalar)

/-- Two octets for one code point, in digits of both cases, with and without a third pair begun. -/
theorem eAcute_recovered :
    Spells (Utf8.encode [0xE9]) "c3A9" ∧ decode "c3A9" = .ok [0xE9] ∧
      decode (Text.ofString "c3A9" ++ [CodePoint.ofChar 'F']) = .ok [0xE9] := by
  have spells : Spells (Utf8.encode [0xE9]) "c3A9" :=
    .cons (b := 0xC3) (by decide) (by decide) (.cons (b := 0xA9) (by decide) (by decide) .nil)
  have scalar : Text.IsScalar [0xE9] := Text.isScalar_cons.2 ⟨by decide, Text.isScalar_nil⟩
  have recovers := recovers_spelled scalar (by decide) spells
  exact ⟨spells, recovers.1.2, (recovers.2 'F' 15 (by decide) (by decide)).2⟩

end Hex

/-! ## Base64 -/

namespace Base64

def alphabet : Text := "ABCDEFGHIJKLMNOPQRSTUVWXYZabcdefghijklmnopqrstuvwxyz0123456789+/"

def digit (n : Nat) : CodePoint := alphabet.getD n padding

/-- The bits of some octets, six by six, with zeros behind the last ones. -/
def sextets : List UInt8 → List Nat
  | [] => []
  | [a] => [a.toNat / 4, a.toNat % 4 * 16]
  | [a, b] => [a.toNat / 4, a.toNat % 4 * 16 + b.toNat / 16, b.toNat % 16 * 4]
  | a :: b :: c :: rest =>
      a.toNat / 4 :: (a.toNat % 4 * 16 + b.toNat / 16) :: (b.toNat % 16 * 4 + c.toNat / 64) ::
        c.toNat % 64 :: sextets rest

/-- The base64 encoding of some octets, padded to a multiple of four digits. -/
def encode (bytes : List UInt8) : Text :=
  let digits := (sextets bytes).map digit
  digits ++ List.replicate ((4 - digits.length % 4) % 4) padding

/-- The code point belongs to one of the two alphabets. -/
def InAlphabet (c : CodePoint) : Prop :=
  (CodePoint.ofChar 'A' ≤ c ∧ c ≤ CodePoint.ofChar 'Z') ∨
    (CodePoint.ofChar 'a' ≤ c ∧ c ≤ CodePoint.ofChar 'z') ∨
    (CodePoint.ofChar '0' ≤ c ∧ c ≤ CodePoint.ofChar '9') ∨ c ∈ (['+', '/', '-', '_'] : Text)

instance (c : CodePoint) : Decidable (InAlphabet c) :=
  inferInstanceAs (Decidable ((_ ∧ _) ∨ (_ ∧ _) ∨ (_ ∧ _) ∨ c ∈ _))

/-- The second payload is the first one with the last two digits of the alphabet in the form that is
safe in addresses or not, with or without its padding, and with other code points put in. -/
inductive Garbles : Text → Text → Prop
  | done : Garbles [] []
  | keep {t v : Text} (c : CodePoint) (more : Garbles t v) : Garbles (c :: t) (c :: v)
  | minus {t v : Text} (more : Garbles t v) :
      Garbles (CodePoint.ofChar '+' :: t) (CodePoint.ofChar '-' :: v)
  | underscore {t v : Text} (more : Garbles t v) :
      Garbles (CodePoint.ofChar '/' :: t) (CodePoint.ofChar '_' :: v)
  | unpad {t v : Text} (more : Garbles t v) : Garbles (padding :: t) v
  | insert {t v : Text} {c : CodePoint} (junk : ¬ InAlphabet c) (more : Garbles t v) :
      Garbles t (c :: v)

/-! ### Cleaning -/

theorem inAlphabet_iff {c : CodePoint} :
    InAlphabet c ↔ (0x41 ≤ c.val ∧ c.val ≤ 0x5A) ∨ (0x61 ≤ c.val ∧ c.val ≤ 0x7A) ∨
      (0x30 ≤ c.val ∧ c.val ≤ 0x39) ∨ c = '+' ∨ c = '/' ∨ c = '-' ∨ c = '_' := by
  simp only [InAlphabet, List.mem_cons, List.not_mem_nil, or_false]
  exact Iff.rfl

theorem isDigit_iff {c : CodePoint} : isDigit c = true ↔ InAlphabet c := by
  simp only [inAlphabet_iff, isDigit, Bool.or_eq_true, Bool.and_eq_true, decide_eq_true_eq,
    beq_iff_eq, or_assoc]

theorem clean_append (t u : Text) : clean (t ++ u) = clean t ++ clean u := by
  rw [clean, List.filter_append, List.map_append, clean, clean]

theorem clean_junk {c : CodePoint} (junk : ¬ InAlphabet c) : clean [c] = [] := by
  rw [clean, List.filter_cons_of_neg (mt isDigit_iff.1 junk)]
  rfl

/-- Nothing that garbles a payload outlasts cleaning. -/
theorem clean_of_garbles {t v : Text} (garbles : Garbles t v) : clean v = clean t := by
  induction garbles with
  | done => rfl
  | @keep t v c _ ih => rw [← List.singleton_append, clean_append, ih, ← clean_append]; rfl
  | minus _ ih => exact congrArg (CodePoint.ofChar '+' :: ·) ih
  | underscore _ ih => exact congrArg (CodePoint.ofChar '/' :: ·) ih
  | unpad _ ih => exact ih
  | @insert t v c junk _ ih => rw [← List.singleton_append, clean_append, clean_junk junk, ih]; rfl

theorem sextet?_digit : ∀ n, n < 64 → sextet? (digit n) = some n := by
  decide +kernel

theorem clean_digit : ∀ n, n < 64 → clean [digit n] = [digit n] := by
  decide +kernel

/-- A digit of either alphabet has a value in its plain form. -/
theorem isSome_sextet?_plain {c : CodePoint} (inside : InAlphabet c) :
    (sextet? (plain c)).isSome = true := by
  rw [inAlphabet_iff] at inside
  unfold plain
  split
  case isTrue => rfl
  case isFalse notMinus =>
      split
      case isTrue => rfl
      case isFalse notUnderscore =>
          unfold sextet?
          repeat' split
          all_goals grind

theorem isSome_sextet?_of_mem_clean {t : Text} : ∀ c ∈ clean t, (sextet? c).isSome = true := by
  intro c inside
  obtain ⟨d, kept, rfl⟩ := List.mem_map.1 inside
  exact isSome_sextet?_plain (isDigit_iff.1 (List.mem_filter.1 kept).2)

/-! ### Reading -/

/-- The octets of some sextets, four by four. -/
def octets? : List Nat → Option (List UInt8)
  | [] => some []
  | [_] => none
  | [a, b] => some [(a * 4 + b / 16).toUInt8]
  | [a, b, c] => some [(a * 4 + b / 16).toUInt8, (b % 16 * 16 + c / 4).toUInt8]
  | a :: b :: c :: d :: rest =>
      (octets? rest).map fun octets =>
        (a * 4 + b / 16).toUInt8 :: (b % 16 * 16 + c / 4).toUInt8 :: (c % 4 * 64 + d).toUInt8 ::
          octets

theorem readFrom_digit {c : CodePoint} {n : Nat} (value : sextet? c = some n) (group : Group)
    (pads : Nat) (t : Text) :
    readFrom group pads (c :: t) =
      readFrom (group.push n).2 0 t >>= fun octets => .ok ((group.push n).1.toList ++ octets) := by
  have digit : c ≠ padding := by
    rintro rfl
    cases value
  rw [readFrom, if_neg digit, value]

theorem pad_group (a b c d : CodePoint) (t : Text) :
    pad (a :: b :: c :: d :: t) = a :: b :: c :: d :: pad t := by
  have whole : (4 - (a :: b :: c :: d :: t).length % 4) % 4 = (4 - t.length % 4) % 4 := by
    simp only [List.length_cons]
    omega
  rw [pad, whole]
  rfl

/-- **Padded digits are read group by group.**  Two or three digits at the end give one or two octets,
since the padding fills their group, and a single one is the only fault. -/
theorem read_pad : ∀ {ds : Text}, (∀ c ∈ ds, (sextet? c).isSome = true) →
    read (pad ds) = match octets? (ds.filterMap sextet?) with
      | some bytes => .ok bytes
      | none => .error .extraDigit
  | [], _ => rfl
  | [a], digits => by
      obtain ⟨x, isX⟩ := Option.isSome_iff_exists.1 (digits a (by simp))
      rw [List.filterMap_cons_some isX]
      show readFrom .empty 0 (a :: _) = _
      rw [readFrom_digit isX]
      rfl
  | [a, b], digits => by
      obtain ⟨x, isX⟩ := Option.isSome_iff_exists.1 (digits a (by simp))
      obtain ⟨y, isY⟩ := Option.isSome_iff_exists.1 (digits b (by simp))
      rw [List.filterMap_cons_some isX, List.filterMap_cons_some isY]
      show readFrom .empty 0 (a :: b :: _) = _
      rw [readFrom_digit isX, readFrom_digit isY]
      rfl
  | [a, b, c], digits => by
      obtain ⟨x, isX⟩ := Option.isSome_iff_exists.1 (digits a (by simp))
      obtain ⟨y, isY⟩ := Option.isSome_iff_exists.1 (digits b (by simp))
      obtain ⟨z, isZ⟩ := Option.isSome_iff_exists.1 (digits c (by simp))
      rw [List.filterMap_cons_some isX, List.filterMap_cons_some isY, List.filterMap_cons_some isZ]
      show readFrom .empty 0 (a :: b :: c :: _) = _
      rw [readFrom_digit isX, readFrom_digit isY, readFrom_digit isZ]
      rfl
  | a :: b :: c :: d :: rest, digits => by
      obtain ⟨x, isX⟩ := Option.isSome_iff_exists.1 (digits a (by simp))
      obtain ⟨y, isY⟩ := Option.isSome_iff_exists.1 (digits b (by simp))
      obtain ⟨z, isZ⟩ := Option.isSome_iff_exists.1 (digits c (by simp))
      obtain ⟨w, isW⟩ := Option.isSome_iff_exists.1 (digits d (by simp))
      have more := @read_pad rest fun c inside => digits c (by simp [inside])
      rw [List.filterMap_cons_some isX, List.filterMap_cons_some isY, List.filterMap_cons_some isZ,
        List.filterMap_cons_some isW, octets?, pad_group, read, readFrom_digit isX,
        readFrom_digit isY, readFrom_digit isZ, readFrom_digit isW]
      simp only [Group.push]
      rw [← read, more]
      cases octets? (rest.filterMap sextet?) <;> rfl

/-- The padding is what makes two digits a group. -/
example : read "YQ" = .error .incorrectPadding ∧ read (pad "YQ") = .ok [0x61] := ⟨rfl, rfl⟩

/-- One sextet left over is the only failure. -/
theorem octets?_eq_none_iff (ns : List Nat) : octets? ns = none ↔ ns.length % 4 = 1 := by
  fun_induction octets? ns with
  | case1 => simp
  | case2 => simp
  | case3 => simp
  | case4 => simp
  | case5 a b c d rest ih =>
      rw [Option.map_eq_none_iff, ih]
      simp only [List.length_cons]
      omega

theorem sextets_lt (bytes : List UInt8) : ∀ n ∈ sextets bytes, n < 64 := by
  fun_induction sextets bytes with
  | case1 => exact List.forall_mem_nil _
  | case2 a =>
      have smallA : a.toNat < 256 := a.toNat_lt
      rw [List.forall_mem_cons, List.forall_mem_cons]
      exact ⟨by omega, by omega, List.forall_mem_nil _⟩
  | case3 a b =>
      have smallA : a.toNat < 256 := a.toNat_lt
      have smallB : b.toNat < 256 := b.toNat_lt
      rw [List.forall_mem_cons, List.forall_mem_cons, List.forall_mem_cons]
      exact ⟨by omega, by omega, by omega, List.forall_mem_nil _⟩
  | case4 a b c rest ih =>
      have smallA : a.toNat < 256 := a.toNat_lt
      have smallB : b.toNat < 256 := b.toNat_lt
      have smallC : c.toNat < 256 := c.toNat_lt
      rw [List.forall_mem_cons, List.forall_mem_cons, List.forall_mem_cons, List.forall_mem_cons]
      exact ⟨by omega, by omega, by omega, by omega, ih⟩

/-- The sextets of some octets are put together again. -/
theorem octets?_sextets (bytes : List UInt8) : octets? (sextets bytes) = some bytes := by
  have octet (a : UInt8) {n : Nat} (same : n = a.toNat) : n.toUInt8 = a := by
    rw [same]
    exact UInt8.ofNat_toNat
  fun_induction sextets bytes with
  | case1 => rfl
  | case2 a => rw [octets?, octet a (by omega)]
  | case3 a b =>
      have smallB : b.toNat < 256 := b.toNat_lt
      rw [octets?, octet a (by omega), octet b (by omega)]
  | case4 a b c rest ih =>
      have smallB : b.toNat < 256 := b.toNat_lt
      have smallC : c.toNat < 256 := c.toNat_lt
      rw [octets?, ih, octet a (by omega), octet b (by omega), octet c (by omega)]
      rfl

theorem encode_eq_pad (bytes : List UInt8) : encode bytes = pad ((sextets bytes).map digit) := rfl

theorem filterMap_map_digit {ns : List Nat} (small : ∀ n ∈ ns, n < 64) :
    (ns.map digit).filterMap sextet? = ns := by
  induction ns with
  | nil => rfl
  | cons n ns ih =>
      rw [List.forall_mem_cons] at small
      rw [List.map_cons, List.filterMap_cons_some (sextet?_digit n small.1), ih small.2]

/-- An encoding is read as the octets that it was made from. -/
theorem read_encode (bytes : List UInt8) : read (encode bytes) = .ok bytes := by
  have digits : ∀ c ∈ (sextets bytes).map digit, (sextet? c).isSome = true := by
    intro c inside
    obtain ⟨n, among, rfl⟩ := List.mem_map.1 inside
    rw [sextet?_digit n (sextets_lt bytes n among)]
    rfl
  rw [encode_eq_pad, read_pad digits, filterMap_map_digit (sextets_lt bytes), octets?_sextets]

/-- The digits of an encoding are clean, and its padding does not outlast cleaning. -/
theorem clean_encode (bytes : List UInt8) : clean (encode bytes) = (sextets bytes).map digit := by
  have digits : ∀ ns : List Nat, (∀ n ∈ ns, n < 64) → clean (ns.map digit) = ns.map digit := by
    intro ns small
    induction ns with
    | nil => rfl
    | cons n ns ih =>
        rw [List.forall_mem_cons] at small
        rw [List.map_cons, ← List.singleton_append, clean_append, clean_digit n small.1, ih small.2]
  have pads (k : Nat) : clean (List.replicate k padding) = [] := by
    rw [clean, List.filter_replicate_of_neg (by decide), List.map_nil]
  rw [encode_eq_pad, pad, clean_append, digits _ (sextets_lt bytes), pads, List.append_nil]

/-- Cleaning and padding undo what garbled an encoding. -/
theorem pad_clean_of_garbles {bytes : List UInt8} {v : Text} (garbles : Garbles (encode bytes) v) :
    pad (clean v) = encode bytes := by
  rw [clean_of_garbles garbles, clean_encode, encode_eq_pad]

theorem decode?_eq_none_iff (v : Text) :
    decode? v = none ↔ v.countP (fun c => decide (InAlphabet c)) % 4 = 1 := by
  have every := isSome_sextet?_of_mem_clean (t := v)
  have reads : (read (pad (clean v))).toOption = octets? ((clean v).filterMap sextet?) := by
    rw [read_pad every]
    cases octets? ((clean v).filterMap sextet?) <;> rfl
  have counts : ((clean v).filterMap sextet?).length =
      v.countP (fun c => decide (InAlphabet c)) := by
    rw [List.length_filterMap_eq_countP, List.countP_eq_length.2 every, clean, List.length_map,
      ← List.countP_eq_length_filter]
    refine List.countP_congr fun c _ => ?_
    rw [isDigit_iff, decide_eq_true_eq]
  rw [decode?, Option.map_eq_none_iff, reads, octets?_eq_none_iff, counts]

/-- Base64 fails exactly if one digit is left over, and otherwise recovers the text from every
payload that comes from its encoding. -/
theorem fails_iff_and_recovers_garbled :
    (∀ v : Text, decode? v = none ↔ v.countP (fun c => decide (InAlphabet c)) % 4 = 1) ∧
      ∀ s v : Text, s.IsScalar → Garbles (encode (Utf8.encode s)) v → decode? v = some s := by
  refine ⟨decode?_eq_none_iff, fun s v scalar garbles => ?_⟩
  rw [decode?, pad_clean_of_garbles garbles, read_encode]
  exact congrArg some (Utf8.decodeLossy_encode scalar)

/-- A payload with a digit in its other form, a blank, and one of two paddings. -/
theorem marksAndLetter_recovered :
    Garbles (encode (Utf8.encode "??>a")) "Pz 8-YQ=" ∧ decode? "Pz 8-YQ=" = some "??>a" := by
  have encoded : encode (Utf8.encode "??>a") = Text.ofString "Pz8+YQ==" := by decide +kernel
  have garbles : Garbles (encode (Utf8.encode "??>a")) "Pz 8-YQ=" := by
    rw [encoded]
    exact .keep _ (.keep _ (.insert (by decide) (.keep _ (.minus (.keep _ (.keep _ (.unpad
      (.keep _ .done))))))))
  exact ⟨garbles, fails_iff_and_recovers_garbled.2 _ _ (Text.isScalar_ofString _) garbles⟩

end Base64

end HiddenLoads
