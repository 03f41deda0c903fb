/-
# HiddenLoads.Text -- text as a list of code points

Recovered specifiers are text that an attacker chose, so a text may hold any code point,
surrogates included.  `Text` is therefore a list of `CodePoint`s and not a `String`; the
program's own words enter it through `Text.ofString`.

Order is by code point (`Text.le`), cutting is at single code points (`Text.cut`,
`Text.splitOn`), and `Text.joinWith` undoes `Text.splitOn`.
-/
namespace HiddenLoads

set_option autoImplicit false

/-- A Unicode code point, surrogates included. -/
abbrev CodePoint := Fin 0x110000

/-- A sequence of code points; adjacent surrogates stay apart. -/
abbrev Text := List CodePoint

namespace CodePoint

def ofChar (c : Char) : CodePoint :=
  ⟨c.toNat, by
    have valid := c.valid
    simp only [UInt32.isValidChar, Nat.isValidChar] at valid
    show c.val.toNat < _
    omega⟩

instance : Coe Char CodePoint := ⟨ofChar⟩

/-- There are code points, so a numeral can stand for one. -/
instance instNeZero : @NeZero Nat Zero.ofOfNat0 0x110000 := ⟨by decide⟩

def doubleQuote : CodePoint := 0x22

def apostrophe : CodePoint := 0x27

def backslash : CodePoint := 0x5C

/-- U+FFFD, which stands for what could not be decoded. -/
def replacement : CodePoint := 0xFFFD

def isHighSurrogate (c : CodePoint) : Bool := 0xD800 ≤ c.val && c.val < 0xDC00

def isLowSurrogate (c : CodePoint) : Bool := 0xDC00 ≤ c.val && c.val < 0xE000

/-- Code points that only have a meaning in UTF-16 pairs and that UTF-8 cannot carry. -/
def isSurrogate (c : CodePoint) : Bool := 0xD800 ≤ c.val && c.val < 0xE000

def ofNat? (n : Nat) : Option CodePoint :=
  if h : n < 0x110000 then some ⟨n, h⟩ else none

def hexValue? (c : CodePoint) : Option Nat :=
  if 0x30 ≤ c.val ∧ c.val ≤ 0x39 then some (c.val - 0x30)
  else if 0x41 ≤ c.val ∧ c.val ≤ 0x46 then some (c.val - 0x37)
  else if 0x61 ≤ c.val ∧ c.val ≤ 0x66 then some (c.val - 0x57)
  else none

def isHexDigit (c : CodePoint) : Bool := c.hexValue?.isSome

def isAsciiDigit (c : CodePoint) : Bool := 0x30 ≤ c.val && c.val ≤ 0x39

def isOctalDigit (c : CodePoint) : Bool := 0x30 ≤ c.val && c.val ≤ 0x37

/-- The lower-case letter of `A` to `Z`, everything else unchanged. -/
def asciiLower (c : CodePoint) : CodePoint :=
  if h : 0x41 ≤ c.val ∧ c.val ≤ 0x5A then ⟨c.val + 0x20, by omega⟩ else c

/-- The digit with value `n`, for `n` below 36: `0` to `9`, then `a` to `z`. -/
def ofDigit (n : Nat) : CodePoint :=
  if h : n < 10 then ⟨n + 0x30, by omega⟩
  else if h : n < 36 then ⟨n + 0x57, by omega⟩
  else replacement

end CodePoint

namespace Text

/-- The program's own words as text. -/
def ofString (s : String) : Text := s.toList.map CodePoint.ofChar

instance : Coe String Text := ⟨ofString⟩

/-- Order by code point, the shorter of two equal beginnings first. -/
def le : Text → Text → Bool
  | [], _ => true
  | _ :: _, [] => false
  | a :: as, b :: bs => a < b || (a == b && le as bs)

/-- No surrogates, so that UTF-8 can carry the text. -/
def IsScalar (t : Text) : Prop := ∀ c ∈ t, c.isSurrogate = false

instance (t : Text) : Decidable t.IsScalar := inferInstanceAs (Decidable (∀ c ∈ t, _))

/-- What stands before the first `mark`, and what stands after it; all and nothing if
there is none. -/
def cut (mark : CodePoint) : Text → Text × Text
  | [] => ([], [])
  | c :: rest =>
      if c = mark then ([], rest)
      else ((c :: (cut mark rest).1), (cut mark rest).2)

/-- The pieces between the `mark`s, one more than there are marks. -/
def splitOn (mark : CodePoint) : Text → List Text
  | [] => [[]]
  | c :: rest =>
      if c = mark then [] :: splitOn mark rest
      else match splitOn mark rest with
        | [] => [[c]]
        | piece :: pieces => (c :: piece) :: pieces

def joinWith (mark : CodePoint) : List Text → Text
  | [] => []
  | [part] => part
  | part :: next :: parts => part ++ mark :: joinWith mark (next :: parts)

def inner (t : Text) : Text := (t.drop 1).dropLast

def replace (t : Text) (mark : CodePoint) (piece : Text) : Text :=
  t.flatMap fun c => if c = mark then piece else [c]

def endsIn (mark : CodePoint) (t : Text) : Bool := t.getLast? == some mark

def beginsIn (mark : CodePoint) (t : Text) : Bool := t.head? == some mark

def ofNat (n : Nat) : Text := (Nat.toDigits 10 n).map CodePoint.ofChar

def ofInt : Int → Text
  | .ofNat n => ofNat n
  | .negSucc n => CodePoint.ofChar '-' :: ofNat (n + 1)

end Text

end HiddenLoads
