/-
# HiddenLoads.Proofs.Escapes -- every way of writing a text in a string literal is read back

A code point can stand in the body of a string literal as it is, by its number in hexadecimal or
octal digits, by its letter, or behind a backslash that does nothing (`StringBody.Spells`), and a
body that writes a text is a row of such spellings with line continuations between them
(`StringBody.Writes`).  An escape takes exactly the code points of its own spelling, whatever
follows it, so the spellings are replaced one by one (`StringBody.unescape_of_spells`).

What comes out can still have a pair of surrogates where the text has one code point behind
U+FFFF.  Both have the same 16-bit units, and the units determine a text without surrogates
(`Utf16.decodeLossy_encode`), so sending the whole through them gives the text.
-/
import HiddenLoads.Proofs.Digits
import HiddenLoads.Proofs.Scalars

namespace HiddenLoads

set_option autoImplicit false

/-! ## Units of 16 bits -/

namespace Utf16

theorem encode_cons (c : CodePoint) (t : Text) : encode (c :: t) = encodePoint c ++ encode t :=
  List.flatMap_cons

@[simp] theorem encode_append (t u : Text) : encode (t ++ u) = encode t ++ encode u :=
  List.flatMap_append

theorem encodePoint_of_short {c : CodePoint} (short : c.val < 0x10000) :
    encodePoint c = [c.val.toUInt16] :=
  if_pos short

theorem toNat_toUInt16 {n : Nat} (small : n < 0x10000) : n.toUInt16.toNat = n :=
  UInt16.toNat_ofNat_of_lt' small

/-- A unit that begins no pair is read alone. -/
theorem decodeLossy_cons {u : UInt16} {rest : List UInt16}
    (alone : isHigh u = true → ∀ v ∈ rest.head?, ¬ isLow v = true) :
    decodeLossy (u :: rest) = single u :: decodeLossy rest := by
  cases rest with
  | nil => rfl
  | cons v rest =>
      have noPair : ¬ (isHigh u && isLow v) = true := by
        rw [Bool.and_eq_true]
        exact fun pair => alone pair.1 v rfl pair.2
      rw [decodeLossy, if_neg noPair]

theorem decodeLossy_pair {u v : UInt16} (high : isHigh u = true) (low : isLow v = true)
    (rest : List UInt16) : decodeLossy (u :: v :: rest) = pair u v :: decodeLossy rest := by
  rw [decodeLossy, high, low, Bool.true_and, if_pos rfl]

/-- The units of a code point are read back, whatever follows them. -/
theorem decodeLossy_encodePoint {c : CodePoint} (plain : c.isSurrogate = false)
    (rest : List UInt16) : decodeLossy (encodePoint c ++ rest) = c :: decodeLossy rest := by
  rw [CodePoint.isSurrogate_eq_false_iff] at plain
  have bound : c.val < 0x110000 := c.isLt
  by_cases short : c.val < 0x10000
  · have value := toNat_toUInt16 short
    have noHigh : ¬ isHigh c.val.toUInt16 = true := by
      rw [isHigh_iff, value]
      omega
    have noLow : ¬ isLow c.val.toUInt16 = true := by
      rw [isLow_iff, value]
      omega
    rw [encodePoint_of_short short, List.singleton_append,
      decodeLossy_cons fun high => absurd high noHigh, single, if_neg (by simp [noHigh, noLow])]
    exact congrArg (· :: _) (Fin.ext value)
  · have first : (0xD800 + (c.val - 0x10000) / 0x400).toUInt16.toNat = _ :=
      toNat_toUInt16 (by omega)
    have second : (0xDC00 + (c.val - 0x10000) % 0x400).toUInt16.toNat = _ :=
      toNat_toUInt16 (by omega)
    have high : isHigh (0xD800 + (c.val - 0x10000) / 0x400).toUInt16 = true := by
      rw [isHigh_iff, first]
      omega
    have low : isLow (0xDC00 + (c.val - 0x10000) % 0x400).toUInt16 = true := by
      rw [isLow_iff, second]
      omega
    rw [encodePoint, if_neg short, List.cons_append, List.singleton_append,
      decodeLossy_pair high low]
    refine congrArg (· :: _) (Fin.ext ?_)
    show 0x10000 + _ % 0x400 * 0x400 + _ % 0x400 = c.val
    rw [first, second]
    omega

theorem decodeLossy_encode {t : Text} (scalar : t.IsScalar) : decodeLossy (encode t) = t := by
  induction t with
  | nil => rfl
  | cons c t ih =>
      obtain ⟨plain, scalar⟩ := Text.isScalar_cons.1 scalar
      rw [encode_cons, decodeLossy_encodePoint plain, ih scalar]

end Utf16

/-- Mending reads the units, also where it leaves the text alone. -/
theorem Text.mendSurrogates_eq_decodeLossy (t : Text) :
    t.mendSurrogates = Utf16.decodeLossy (Utf16.encode t) := by
  rw [mendSurrogates]
  split
  case isTrue => exact Utf16.decodeMarked_encodeMarked t
  case isFalse clear =>
      have plain : t.IsScalar := isScalar_iff_any.2 (by simpa using clear)
      rw [Utf16.decodeLossy_encode plain]

/-- A text that has the units of one without surrogates is mended to that one. -/
theorem Text.mendSurrogates_eq {t u : Text} (units : Utf16.encode t = Utf16.encode u)
    (scalar : u.IsScalar) : t.mendSurrogates = u := by
  rw [mendSurrogates_eq_decodeLossy, units, Utf16.decodeLossy_encode scalar]

namespace StringBody

/-! ## Spellings -/

/-- The letters with the control characters that they stand for behind a backslash. -/
def letters : List (CodePoint × CodePoint) :=
  [('n', 0x0A), ('t', 0x09), ('r', 0x0D), ('b', 0x08), ('f', 0x0C), ('v', 0x0B)]

/-- A backslash before the code point begins no escape and no line continuation. -/
def IsInert (c : CodePoint) : Prop :=
  ¬ (0x30 ≤ c.val ∧ c.val ≤ 0x37) ∧ c ∉ (['n', 't', 'r', 'b', 'f', 'v', 'u', 'x'] : Text) ∧
    c ∉ ([0x0A, 0x0D, 0x2028, 0x2029] : Text)

instance (c : CodePoint) : Decidable (IsInert c) :=
  inferInstanceAs (Decidable (¬ _ ∧ _ ∉ _ ∧ _ ∉ _))

def highHalf (c : CodePoint) : Nat := 0xD800 + (c.val - 0x10000) / 0x400

def lowHalf (c : CodePoint) : Nat := 0xDC00 + (c.val - 0x10000) % 0x400

open CodePoint in
/-- One way to write a code point in the body of a string literal. -/
inductive Spells : CodePoint → Text → Prop
  /-- The code point itself. -/
  | raw {c : CodePoint} (plain : c ≠ backslash) : Spells c [c]
  /-- Two hexadecimal digits behind `\x`. -/
  | hexadecimal {c : CodePoint} {digits : Text} (writes : Numeral.Writes 16 c.val digits)
      (two : digits.length = 2) : Spells c (backslash :: ofChar 'x' :: digits)
  /-- Four hexadecimal digits behind `\u`. -/
  | unit {c : CodePoint} {digits : Text} (writes : Numeral.Writes 16 c.val digits)
      (four : digits.length = 4) : Spells c (backslash :: ofChar 'u' :: digits)
  /-- The two halves of a code point behind U+FFFF, each in four digits. -/
  | pair {c : CodePoint} {first second : Text} (above : 0x10000 ≤ c.val)
      (writesHigh : Numeral.Writes 16 (highHalf c) first) (fourHigh : first.length = 4)
      (writesLow : Numeral.Writes 16 (lowHalf c) second) (fourLow : second.length = 4) :
      Spells c ((backslash :: ofChar 'u' :: first) ++ backslash :: ofChar 'u' :: second)
  /-- Hexadecimal digits in braces behind `\u`, as many as one likes. -/
  | braced {c : CodePoint} {digits : Text} (writes : Numeral.Writes 16 c.val digits)
      (some : digits ≠ []) : Spells c (backslash :: ofChar 'u' :: 0x7B :: digits ++ [0x7D])
  /-- Three octal digits, up to `\377`. -/
  | octal {c : CodePoint} {digits : Text} (writes : Numeral.Writes 8 c.val digits)
      (three : digits.length = 3) (most : c.val ≤ 0xFF) : Spells c (backslash :: digits)
  /-- The letter of a control character. -/
  | letter {c l : CodePoint} (stands : (l, c) ∈ letters) : Spells c [backslash, l]
  /-- A backslash that does nothing. -/
  | inert {c : CodePoint} (inert : IsInert c) : Spells c [backslash, c]

/-- The body writes the text: spellings of its code points in order, and line continuations. -/
inductive Writes : Text → Text → Prop
  | done : Writes [] []
  | continuation {text body : Text} (writes : Writes text body) :
      Writes text (CodePoint.backslash :: 0x0A :: body)
  | point {c : CodePoint} {spelling text body : Text} (spells : Spells c spelling)
      (writes : Writes text body) : Writes (c :: text) (spelling ++ body)

/-! ## One escape -/

theorem unescapeFrom_append (t rest : Text) :
    unescapeFrom t.length (t ++ rest) = unescape rest := by
  induction t with
  | nil => rfl
  | cons c t ih => rw [List.length_cons, List.cons_append, unescapeFrom, ih]

theorem unescape_backslash (d : CodePoint) (rest : Text) :
    unescape (CodePoint.backslash :: d :: rest) =
      (escape d rest).text ++ unescapeFrom (escape d rest).used (d :: rest) := by
  rw [unescape, unescapeFrom.eq_def]
  simp only [if_pos]

theorem unescape_of_plain {c : CodePoint} (plain : c ≠ CodePoint.backslash) (rest : Text) :
    unescape (c :: rest) = c :: unescape rest := by
  rw [unescape, unescapeFrom.eq_def]
  simp only [if_neg plain]
  rfl

/-- An escape that takes what stands between the backslash and the rest of the body. -/
theorem unescape_escape {d : CodePoint} (more : Text) {body text : Text}
    (takes : escape d (more ++ body) = ⟨text, more.length + 1⟩) :
    unescape (CodePoint.backslash :: d :: more ++ body) = text ++ unescape body := by
  have skips : unescapeFrom (more.length + 1) (d :: (more ++ body)) = unescape body :=
    unescapeFrom_append (d :: more) body
  show unescape (CodePoint.backslash :: d :: (more ++ body)) = _
  rw [unescape_backslash, takes]
  exact congrArg (text ++ ·) skips

theorem point_val (c : CodePoint) : point c.val = [c] := by
  rw [point, CodePoint.ofNat?, dif_pos c.isLt]
  rfl

theorem valueOf_of_writes {base n : Nat} {digits : Text} (writes : Numeral.Writes base n digits)
    (most : base ≤ 16) : valueOf base digits = n := by
  induction writes with
  | none => rfl
  | @more n d digits c _ small isDigit ih =>
      have value := (CodePoint.hexValue?_eq_some_iff (by omega)).2 isDigit
      rw [valueOf] at ih ⊢
      rw [List.foldl_append, ih, List.foldl_cons, List.foldl_nil, value]
      rfl

/-- The two halves of a code point have its units. -/
theorem encode_halves {c : CodePoint} (above : 0x10000 ≤ c.val) :
    Utf16.encode (point (highHalf c) ++ point (lowHalf c)) = Utf16.encodePoint c := by
  have bound : c.val < 0x110000 := c.isLt
  have isHigh : highHalf c < 0x10000 := by rw [highHalf]; omega
  have isLow : lowHalf c < 0x10000 := by rw [lowHalf]; omega
  have single {n : Nat} (short : n < 0x10000) : Utf16.encode (point n) = [n.toUInt16] := by
    rw [point, CodePoint.ofNat?, dif_pos (by omega)]
    show Utf16.encodePoint _ ++ [] = _
    rw [List.append_nil, Utf16.encodePoint_of_short short]
  rw [Utf16.encode_append, single isHigh, single isLow, Utf16.encodePoint, if_neg (by omega)]
  rfl

theorem escape_hexadecimal {n : Nat} {digits : Text} (writes : Numeral.Writes 16 n digits)
    (two : digits.length = 2) (body : Text) :
    escape 'x' (digits ++ body) = ⟨point n, digits.length + 1⟩ := by
  have taken : (digits ++ body).take 2 = digits := by rw [← two, List.take_left]
  have long : 2 ≤ (digits ++ body).length := by rw [List.length_append]; omega
  rw [escape, if_neg (by decide), if_pos rfl, hexadecimal, taken,
    if_pos ⟨long, writes.all_isHexDigit (by decide)⟩, valueOf_of_writes writes (by decide), two]

theorem escape_unit {n : Nat} {digits : Text} (writes : Numeral.Writes 16 n digits)
    (four : digits.length = 4) (body : Text) :
    escape 'u' (digits ++ body) = ⟨point n, digits.length + 1⟩ := by
  have every := writes.all_isHexDigit (by decide)
  have taken : (digits ++ body).take 4 = digits := by rw [← four, List.take_left]
  have long : 4 ≤ (digits ++ body).length := by rw [List.length_append]; omega
  have noBrace : (digits ++ body).head? ≠ some 0x7B := by
    cases digits with
    | nil => cases four
    | cons c digits =>
        rw [List.all_cons, Bool.and_eq_true] at every
        intro brace
        cases brace
        exact absurd every.1 (by decide)
  rw [escape, if_pos rfl, unicode, if_neg (fun braced => noBrace braced.1), taken,
    if_pos ⟨long, every⟩, valueOf_of_writes writes (by decide), four]

/-- Digits in braces end where the closing brace stands. -/
theorem escape_braced {n : Nat} {digits : Text} (writes : Numeral.Writes 16 n digits)
    (some : digits ≠ []) (body : Text) :
    escape 'u' ((0x7B :: digits ++ [0x7D]) ++ body) =
      ⟨point n, (0x7B :: digits ++ [0x7D]).length + 1⟩ := by
  have every := writes.all_isHexDigit (by decide)
  have taken : (digits ++ 0x7D :: body).takeWhile CodePoint.isHexDigit = digits := by
    rw [List.takeWhile_append_of_pos (List.all_eq_true.1 every), List.takeWhile_cons,
      if_neg (by decide), List.append_nil]
  have closed : ((0x7B :: (digits ++ 0x7D :: body)).drop (1 + digits.length)).head? =
      Option.some 0x7D := by
    rw [Nat.add_comm, List.drop_succ_cons, List.drop_left]
    rfl
  have shape : (0x7B :: digits ++ [0x7D]) ++ body = 0x7B :: (digits ++ 0x7D :: body) := by simp
  have long : (0x7B :: digits ++ [0x7D] : Text).length + 1 = digits.length + 3 := by simp
  rw [shape, long, escape, if_pos rfl, unicode]
  simp only [List.drop_one, List.tail_cons, taken]
  rw [if_pos ⟨rfl, some, closed⟩, valueOf_of_writes writes (by decide)]

/-- Three octal digits up to `\377` belong together. -/
theorem escape_octal {n : Nat} {a b c : CodePoint} (writes : Numeral.Writes 8 n [a, b, c])
    (most : n ≤ 0xFF) (body : Text) : escape a (b :: c :: body) = ⟨point n, 3⟩ := by
  have value := valueOf_of_writes writes (by decide)
  obtain ⟨i, smallI, isI⟩ := writes.digit_of_mem (show a ∈ [a, b, c] by simp)
  obtain ⟨j, smallJ, isJ⟩ := writes.digit_of_mem (show b ∈ [a, b, c] by simp)
  obtain ⟨k, smallK, isK⟩ := writes.digit_of_mem (show c ∈ [a, b, c] by simp)
  -- The number would be too great with another first digit, and then two digits are taken.
  have first : a.val ≤ 0x33 := by
    simp only [valueOf, List.foldl_cons, List.foldl_nil,
      (CodePoint.hexValue?_eq_some_iff (by omega)).2 isI,
      (CodePoint.hexValue?_eq_some_iff (by omega)).2 isJ,
      (CodePoint.hexValue?_eq_some_iff (by omega)).2 isK, Option.getD_some] at value
    rw [isI.val_eq (by omega)]
    omega
  have octalA := isI.isOctalDigit smallI
  have noU : a ≠ CodePoint.ofChar 'u' := by
    rintro rfl
    exact absurd octalA (by decide)
  have noX : a ≠ CodePoint.ofChar 'x' := by
    rintro rfl
    exact absurd octalA (by decide)
  rw [escape, if_neg noU, if_neg noX, if_pos octalA, octal]
  simp only [if_pos first, List.take_succ_cons, List.take_zero, List.takeWhile_cons,
    isJ.isOctalDigit smallJ, isK.isOctalDigit smallK, if_true, List.takeWhile_nil, value]
  rfl

theorem escape_letter {l c : CodePoint} (stands : (l, c) ∈ letters) (body : Text) :
    escape l body = ⟨[c], 1⟩ := by
  simp only [letters, List.mem_cons, List.not_mem_nil, or_false, Prod.mk.injEq] at stands
  rcases stands with ⟨rfl, rfl⟩ | ⟨rfl, rfl⟩ | ⟨rfl, rfl⟩ | ⟨rfl, rfl⟩ | ⟨rfl, rfl⟩ | ⟨rfl, rfl⟩
  all_goals rfl

theorem escape_inert {c : CodePoint} (inert : IsInert c) (body : Text) :
    escape c body = ⟨[c], 1⟩ := by
  obtain ⟨noDigit, noLetter, noEnd⟩ := inert
  simp only [List.mem_cons, List.not_mem_nil, or_false, not_or] at noLetter noEnd
  obtain ⟨n, t, r, b, f, v, u, x⟩ := noLetter
  obtain ⟨feed, carriage, line, paragraph⟩ := noEnd
  have noOctal : ¬ c.isOctalDigit = true := by
    rw [CodePoint.isOctalDigit, Bool.and_eq_true, decide_eq_true_eq, decide_eq_true_eq]
    exact noDigit
  have noPair : ¬ (c.val = 0x0D ∧ body.head? = some 0x0A) := fun pair => carriage (Fin.ext pair.1)
  have noLineEnd : ¬ isLineEnd c = true := by
    simp only [Fin.ext_iff] at feed carriage line paragraph
    simp only [isLineEnd, Bool.or_eq_true, decide_eq_true_eq]
    rintro (((isFeed | isCarriage) | isLine) | isParagraph)
    · exact feed isFeed
    · exact carriage isCarriage
    · exact line isLine
    · exact paragraph isParagraph
  rw [escape, if_neg u, if_neg x, if_neg noOctal, if_neg noPair, if_neg noLineEnd, letter?,
    if_neg n, if_neg t, if_neg r, if_neg b, if_neg f, if_neg v]
  rfl

/-! ## Bodies -/

/-- A spelling is replaced by what has the units of its code point. -/
theorem unescape_of_spells {c : CodePoint} {spelling : Text} (spells : Spells c spelling) :
    ∃ t, Utf16.encode t = Utf16.encodePoint c ∧
      ∀ body, unescape (spelling ++ body) = t ++ unescape body := by
  have alone : Utf16.encode [c] = Utf16.encodePoint c := List.append_nil _
  cases spells with
  | raw plain => exact ⟨[c], alone, unescape_of_plain plain⟩
  | hexadecimal writes two =>
      refine ⟨point c.val, by rw [point_val, alone], fun body => ?_⟩
      exact unescape_escape _ (escape_hexadecimal writes two body)
  | unit writes four =>
      refine ⟨point c.val, by rw [point_val, alone], fun body => ?_⟩
      exact unescape_escape _ (escape_unit writes four body)
  | pair above writesHigh fourHigh writesLow fourLow =>
      refine ⟨point (highHalf c) ++ point (lowHalf c), encode_halves above, fun body => ?_⟩
      rw [List.append_assoc, unescape_escape _ (escape_unit writesHigh fourHigh _),
        unescape_escape _ (escape_unit writesLow fourLow body), List.append_assoc]
  | braced writes some =>
      refine ⟨point c.val, by rw [point_val, alone], fun body => ?_⟩
      exact unescape_escape _ (escape_braced writes some body)
  | @octal digits writes three most =>
      refine ⟨point c.val, by rw [point_val, alone], fun body => ?_⟩
      match digits, three with
      | [i, j, k], _ => exact unescape_escape [j, k] (escape_octal writes most body)
  | letter stands =>
      exact ⟨[c], alone, fun body => unescape_escape [] (escape_letter stands body)⟩
  | inert inert =>
      exact ⟨[c], alone, fun body => unescape_escape [] (escape_inert inert body)⟩

theorem unescape_of_writes {text body : Text} (writes : Writes text body) :
    Utf16.encode (unescape body) = Utf16.encode text := by
  induction writes with
  | done => rfl
  | @continuation text body _ ih =>
      have vanishes : escape 0x0A ([] ++ body) = ⟨[], 1⟩ := rfl
      rw [← ih]
      exact congrArg Utf16.encode (unescape_escape [] vanishes)
  | point spells _ ih =>
      obtain ⟨t, units, replaced⟩ := unescape_of_spells spells
      rw [replaced, Utf16.encode_append, units, ih]
      rfl

/-- Whatever way a text without surrogates is written in a string literal, the literal stands for
the text. -/
theorem decode_of_writes {text body : Text} (scalar : text.IsScalar) (writes : Writes text body) :
    decode body = text :=
  Text.mendSurrogates_eq (unescape_of_writes writes) scalar

/-- A code point in two halves, a line continuation, an octal escape before a digit, and a backslash
that does nothing. -/
theorem splitFace_decoded :
    Text.IsScalar (0x1F600 :: Text.ofString "a7q") ∧
      decode "\\ud83D\\uDE00\\\n\\1417\\q" = 0x1F600 :: Text.ofString "a7q" := by
  have high : Numeral.Writes 16 (highHalf 0x1F600) "d83D" :=
    .more (d := 13) (.more (d := 3) (.more (d := 8) (.more (d := 13) .none (by decide) (by decide))
      (by decide) (by decide)) (by decide) (by decide)) (by decide) (by decide)
  have low : Numeral.Writes 16 (lowHalf 0x1F600) "DE00" :=
    .more (d := 0) (.more (d := 0) (.more (d := 14) (.more (d := 13) .none (by decide) (by decide))
      (by decide) (by decide)) (by decide) (by decide)) (by decide) (by decide)
  have octal : Numeral.Writes 8 0x61 "141" :=
    .more (d := 1) (.more (d := 4) (.more (d := 1) .none (by decide) (by decide)) (by decide)
      (by decide)) (by decide) (by decide)
  have face : Spells 0x1F600 "\\ud83D\\uDE00" := .pair (by decide) high rfl low rfl
  have letter : Spells 'a' "\\141" := .octal octal rfl (by decide)
  have writes : Writes (0x1F600 :: Text.ofString "a7q") "\\ud83D\\uDE00\\\n\\1417\\q" :=
    .point face (.continuation (.point letter (.point (.raw (by decide))
      (.point (.inert (by decide)) .done))))
  have scalar : Text.IsScalar (0x1F600 :: Text.ofString "a7q") :=
    Text.isScalar_cons.2 ⟨by decide, Text.isScalar_ofString "a7q"⟩
  exact ⟨scalar, decode_of_writes scalar writes⟩

end StringBody

end HiddenLoads
