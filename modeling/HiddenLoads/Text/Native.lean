/-
# HiddenLoads.Text.Native -- text as the system takes it

Names of files and variables of the environment go to the system as octets that end in a NUL.
They are UTF-8, except that surrogates from U+DC80 to U+DCFF stand for one octet each, the
stray octets of names that are not UTF-8.  Text with any other surrogate, or with a NUL, cannot
be given to the system (`Native.encode`).
-/
import HiddenLoads.Failure

namespace HiddenLoads

set_option autoImplicit false

namespace Native

/-- The code point stands for a stray octet. -/
def isStray (c : CodePoint) : Bool := 0xDC80 ≤ c.val && c.val ≤ 0xDCFF

def encodePoint (c : CodePoint) : List UInt8 :=
  if isStray c then [(c.val - 0xDC00).toUInt8] else Utf8.encodePoint c

def size (t : Text) : Nat := (t.map fun c => (encodePoint c).length).foldl (· + ·) 0

/-- The octets of a text that can be given to the system. -/
def encode (t : Text) : Except Failure (List UInt8) :=
  if t.any fun c => c.isSurrogate && !isStray c then .error .unwritableText
  else if t.contains 0 then .error .embeddedNul
  else .ok (t.flatMap encodePoint)

end Native

end HiddenLoads
