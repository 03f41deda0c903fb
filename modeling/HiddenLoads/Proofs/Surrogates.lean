/-
# HiddenLoads.Proofs.Surrogates -- what becomes of surrogates in a string literal

Escapes can write any code point, and the body of a literal can hold any, so the text with its
escapes replaced may have surrogates in every order.  `Text.Mends` says what they stand for, reading
from left to right: a high one right before a low one is the code point whose halves they are, every
other one is U+FFFD, and all else stays as it is, U+FEFF at the beginning included.

The program takes another way.  It writes the whole text in 16-bit units behind a mark and reads the
units again, and only if there is a surrogate at all.  A unit of a surrogate is the surrogate itself,
and the first unit of what follows ends a pair only if a low surrogate follows
(`Utf16.isLow_head_encode`), so the units are paired exactly where the code points are
(`Text.Mends.decodeLossy_encode`).  Every text is mended to something (`Text.exists_mends`), hence
the relation and the program have the same result (`Text.mends_iff`).
-/
import HiddenLoads.Proofs.Escapes

namespace HiddenLoads

set_option autoImplicit false

namespace CodePoint

theorem isHighSurrogate_iff {c : CodePoint} :
    c.isHighSurrogate = true ↔ 0xD800 ≤ c.val ∧ c.val < 0xDC00 := by
  rw [isHighSurrogate, Bool.and_eq_true, decide_eq_true_eq, decide_eq_true_eq]

theorem isLowSurrogate_iff {c : CodePoint} :
    c.isLowSurrogate = true ↔ 0xDC00 ≤ c.val ∧ c.val < 0xE000 := by
  rw [isLowSurrogate, Bool.and_eq_true, decide_eq_true_eq, decide_eq_true_eq]

/-- The two are the halves of a code point behind U+FFFF. -/
structure Halves (high low c : CodePoint) : Prop where
  above : 0x10000 ≤ c.val
  first : high.val = StringBody.highHalf c
  second : low.val = StringBody.lowHalf c

/-- Any high surrogate and any low one are the halves of a code point. -/
theorem exists_halves {high low : CodePoint} (isHigh : high.isHighSurrogate = true)
    (isLow : low.isLowSurrogate = true) : ∃ c, Halves high low c := by
  rw [isHighSurrogate_iff] at isHigh
  rw [isLowSurrogate_iff] at isLow
  refine ⟨⟨0x10000 + (high.val - 0xD800) * 0x400 + (low.val - 0xDC00), by omega⟩, ?_, ?_, ?_⟩
  · simp only
    omega
  · simp only [StringBody.highHalf]
    omega
  · simp only [StringBody.lowHalf]
    omega

end CodePoint

/-! ## The rule -/

namespace Text

/-- The text begins with a high surrogate and a low one right behind it. -/
def BeginsPair : Text → Prop
  | high :: low :: _ => high.isHighSurrogate = true ∧ low.isLowSurrogate = true
  | _ => False

/-- What a text is with its surrogates mended, from left to right. -/
inductive Mends : Text → Text → Prop
  | done : Mends [] []
  /-- A pair becomes the code point that it encodes. -/
  | merge {high low c : CodePoint} {t u : Text} (pair : BeginsPair (high :: low :: t))
      (halves : CodePoint.Halves high low c) (mends : Mends t u) : Mends (high :: low :: t) (c :: u)
  /-- A surrogate that begins no pair is replaced; the second half of a pair never comes here. -/
  | replace {c : CodePoint} {t u : Text} (surrogate : c.isSurrogate = true)
      (alone : ¬ BeginsPair (c :: t)) (mends : Mends t u) :
      Mends (c :: t) (CodePoint.replacement :: u)
  /-- Everything else stays. -/
  | keep {c : CodePoint} {t u : Text} (plain : c.isSurrogate = false) (mends : Mends t u) :
      Mends (c :: t) (c :: u)

/-- No text is left without a rule: what begins no pair is replaced or kept. -/
theorem exists_mends (t : Text) : ∃ u, Mends t u := by
  -- The recursion is on the length, as a pair takes two code points at once.
  match t with
  | [] => exact ⟨[], .done⟩
  | c :: t =>
      obtain ⟨u, mends⟩ := exists_mends t
      by_cases plain : c.isSurrogate = false
      · exact ⟨c :: u, .keep plain mends⟩
      by_cases pair : BeginsPair (c :: t)
      · match t, pair with
        | low :: t, pair =>
            obtain ⟨joined, halves⟩ := CodePoint.exists_halves pair.1 pair.2
            obtain ⟨u, mends⟩ := exists_mends t
            exact ⟨joined :: u, .merge pair halves mends⟩
      · exact ⟨_, .replace (Bool.not_eq_false _ ▸ plain) pair mends⟩
termination_by t.length

end Text

/-! ## Units of surrogates -/

namespace Utf16

/-- The first unit of a text ends a pair only where it is a low surrogate itself: the first unit of
a code point behind U+FFFF begins one. -/
theorem isLow_head_encode {t : Text} {v : UInt16} (first : v ∈ (encode t).head?)
    (isLow : isLow v = true) : ∃ low rest, t = low :: rest ∧ low.isLowSurrogate = true := by
  cases t with
  | nil => cases first
  | cons c t =>
      refine ⟨c, t, rfl, ?_⟩
      have bound : c.val < 0x110000 := c.isLt
      rw [isLow_iff] at isLow
      rw [encode_cons, encodePoint] at first
      split at first
      case isTrue short =>
          cases first
          rw [toNat_toUInt16 short] at isLow
          exact CodePoint.isLowSurrogate_iff.2 isLow
      case isFalse =>
          cases first
          rw [toNat_toUInt16 (by omega)] at isLow
          omega

/-- Two halves are read as their code point. -/
theorem decodeLossy_encode_halves {high low c : CodePoint} (halves : CodePoint.Halves high low c)
    (t : Text) : decodeLossy (encode (high :: low :: t)) = c :: decodeLossy (encode t) := by
  have above := halves.above
  have plain : c.isSurrogate = false := CodePoint.isSurrogate_eq_false_iff.2 (by omega)
  have units : encode [high, low] = encodePoint c := by
    rw [← StringBody.encode_halves above, ← halves.first, ← halves.second, StringBody.point_val,
      StringBody.point_val]
    rfl
  calc decodeLossy (encode ([high, low] ++ t))
      = decodeLossy (encodePoint c ++ encode t) := by rw [encode_append, units]
    _ = c :: decodeLossy (encode t) := decodeLossy_encodePoint plain _

/-- A surrogate that begins no pair is read as U+FFFD. -/
theorem decodeLossy_encode_alone {c : CodePoint} {t : Text} (surrogate : c.isSurrogate = true)
    (alone : ¬ Text.BeginsPair (c :: t)) :
    decodeLossy (encode (c :: t)) = CodePoint.replacement :: decodeLossy (encode t) := by
  rw [CodePoint.isSurrogate_iff] at surrogate
  have short : c.val < 0x10000 := by omega
  have value := toNat_toUInt16 short
  have unpaired (isHigh : isHigh c.val.toUInt16 = true) :
      ∀ v ∈ (encode t).head?, ¬ isLow v = true := by
    intro v first isLow
    -- The low surrogate would stand right behind this high one.
    obtain ⟨low, rest, rfl, follows⟩ := isLow_head_encode first isLow
    rw [isHigh_iff, value] at isHigh
    exact alone ⟨CodePoint.isHighSurrogate_iff.2 isHigh, follows⟩
  have half : (isHigh c.val.toUInt16 || isLow c.val.toUInt16) = true := by
    rw [Bool.or_eq_true, isHigh_iff, isLow_iff, value]
    omega
  rw [encode_cons, encodePoint_of_short short, List.singleton_append, decodeLossy_cons unpaired,
    single, if_pos half]

end Utf16

/-! ## The program follows the rule -/

namespace Text

/-- The units of a text are read as the mended text. -/
theorem Mends.decodeLossy_encode {t u : Text} (mends : Mends t u) :
    Utf16.decodeLossy (Utf16.encode t) = u := by
  induction mends with
  | done => rfl
  | merge _ halves _ ih => rw [Utf16.decodeLossy_encode_halves halves, ih]
  | replace surrogate alone _ ih => rw [Utf16.decodeLossy_encode_alone surrogate alone, ih]
  | keep plain _ ih => rw [Utf16.encode_cons, Utf16.decodeLossy_encodePoint plain, ih]

theorem mends_iff {t u : Text} : Mends t u ↔ t.mendSurrogates = u := by
  rw [mendSurrogates_eq_decodeLossy]
  constructor
  · exact Mends.decodeLossy_encode
  · rintro rfl
    obtain ⟨u, mends⟩ := exists_mends t
    rw [mends.decodeLossy_encode]
    exact mends

end Text

namespace StringBody

/-- Whatever the body of a string literal is, it stands for a text without surrogates, and this is
the one text that the body with its escapes replaced is mended to. -/
theorem decode_mends_unescape (body : Text) :
    (decode body).IsScalar ∧ ∀ text, (unescape body).Mends text ↔ decode body = text :=
  ⟨decode_isScalar body, fun _ => Text.mends_iff⟩

/-- U+FEFF before a surrogate stays, of low, high, high, low the last two are a pair, and a high one
at the end is alone. -/
example : decode "\\uFEFF\\uDE00\\uD83D\\uD83D\\uDE00\\uD83D" =
    [0xFEFF, 0xFFFD, 0xFFFD, 0x1F600, 0xFFFD] := by
  decide

end StringBody

end HiddenLoads
