/-
# HiddenLoads.Literal.Hex -- text hidden in hexadecimal digits

Four or more hexadecimal digits, perhaps before one final line feed, are taken for encoded
text.  Decoding drops an odd last code point, reads the rest as pairs of digits with blanks
allowed between pairs, and reads the octets as UTF-8.
-/
import HiddenLoads.Failure
import HiddenLoads.Number.Decimal
import HiddenLoads.Text.Utf8

namespace HiddenLoads

set_option autoImplicit false

namespace Hex

def withoutFinalFeed (t : Text) : Text := if t.endsIn 0x0A then t.dropLast else t

def looksEncoded (t : Text) : Bool :=
  4 ≤ (withoutFinalFeed t).length && (withoutFinalFeed t).all CodePoint.isHexDigit

def octet? (high low : CodePoint) : Option UInt8 := do
  some (((← high.hexValue?) * 16 + (← low.hexValue?)).toUInt8)

/-- The octets of digit pairs with blanks between them. -/
def octets? : Text → Option (List UInt8)
  | [] => some []
  | [c] => if Numeral.isSpace c then some [] else none
  | c :: d :: rest =>
      if Numeral.isSpace c then octets? (d :: rest)
      else do
        let octet ← octet? c d
        some (octet :: (← octets? rest))

/-- The text without its last code point if their number is odd. -/
def even (t : Text) : Text := t.take (t.length - t.length % 2)

def decode (t : Text) : Except Failure Text :=
  match octets? (even t) with
  | some bytes => .ok (Utf8.decodeLossy bytes)
  | none => .error .badHex

end Hex

end HiddenLoads
