/-
# HiddenLoads.Text.Utf16 -- text as 16-bit units

`Utf16.encode` writes surrogates as the units they are, so that two of them that stand side
by side become a pair; `Utf16.decodeLossy` reads pairs as one code point and shows every
unit that is half of no pair as U+FFFD.  Units that are passed on stand behind a mark, U+FEFF,
which tells the order of their octets and is not part of the text (`Utf16.encodeMarked`,
`Utf16.decodeMarked`).  `Text.mendSurrogates` sends a text through both.
-/
import HiddenLoads.Text

namespace HiddenLoads

set_option autoImplicit false

namespace Utf16

def encodePoint (c : CodePoint) : List UInt16 :=
  if c.val < 0x10000 then [c.val.toUInt16]
  else
    [(0xD800 + (c.val - 0x10000) / 0x400).toUInt16,
      (0xDC00 + (c.val - 0x10000) % 0x400).toUInt16]

def encode (t : Text) : List UInt16 := t.flatMap encodePoint

def isHigh (u : UInt16) : Bool := 0xD800 ≤ u && u < 0xDC00

def isLow (u : UInt16) : Bool := 0xDC00 ≤ u && u < 0xE000

def pair (high low : UInt16) : CodePoint :=
  ⟨0x10000 + (high.toNat % 0x400) * 0x400 + low.toNat % 0x400, by omega⟩

def single (u : UInt16) : CodePoint :=
  if isHigh u || isLow u then CodePoint.replacement
  else ⟨u.toNat, Nat.lt_trans u.toNat_lt (by decide)⟩

/-- The text of some units, one U+FFFD for each unpaired surrogate. -/
def decodeLossy : List UInt16 → Text
  | [] => []
  | [u] => [single u]
  | u :: v :: rest =>
      if isHigh u && isLow v then pair u v :: decodeLossy rest
      else single u :: decodeLossy (v :: rest)

/-- The unit that tells the order of octets. -/
def mark : UInt16 := 0xFEFF

/-- The unit with its two octets exchanged. -/
def exchange (u : UInt16) : UInt16 := (u <<< 8) ||| (u >>> 8)

def encodeMarked (t : Text) : List UInt16 := mark :: encode t

/-- The text of some units.  One mark in front does not belong to it, and where that one has its
octets exchanged, so have all the others. -/
def decodeMarked : List UInt16 → Text
  | [] => []
  | u :: rest =>
      if u = mark then decodeLossy rest
      else if u = exchange mark then decodeLossy (rest.map exchange)
      else decodeLossy (u :: rest)

/-- What is left out in reading is the mark that was written, and no U+FEFF of the text. -/
@[simp] theorem decodeMarked_encodeMarked (t : Text) :
    decodeMarked (encodeMarked t) = decodeLossy (encode t) := by
  rw [encodeMarked, decodeMarked, if_pos rfl]

end Utf16

/-- The text with surrogates paired where they stand side by side and replaced elsewhere. -/
def Text.mendSurrogates (t : Text) : Text :=
  if t.any CodePoint.isSurrogate then Utf16.decodeMarked (Utf16.encodeMarked t) else t

end HiddenLoads
