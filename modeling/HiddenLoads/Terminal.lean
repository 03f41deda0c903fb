/-
# HiddenLoads.Terminal -- output that a terminal can show

The reports use a few symbols beyond ASCII, and recovered specifiers can hold anything.  On a
terminal that does not take UTF-8 the symbols are spelled out, and whatever else its character
set lacks becomes a question mark.
-/
import HiddenLoads.Failure
import HiddenLoads.Terminal.Codec
import HiddenLoads.Text.Case

namespace HiddenLoads

set_option autoImplicit false

/-- What is known about a terminal: the character set that it names, and that of the locale. -/
structure Terminal where
  named : Option Text
  locale : Option Text
deriving DecidableEq, Repr

namespace Terminal

def encoding (t : Terminal) : Text :=
  match t.named, t.locale with
  | some (c :: rest), _ => Text.lower (c :: rest)
  | _, some locale => locale.lower
  | _, none => "ascii"

def takesUtf8 (t : Terminal) : Bool :=
  let name := t.encoding.replace '_' ("-" : String)
  name = ("utf-8" : String) || name = ("utf8" : String)

def symbols : List (CodePoint × Text) := [
    (0x2713, "[OK]"), (0x2717, "[FAIL]"), (0x26A0, "[WARN]"), (0x1F50D, "[scan]"),
    (0x1F4E6, "[pkg]"), (0x2192, "->"), (0x2026, "..."), (0x2022, "*")]

def spellOut (c : CodePoint) : Text := (symbols.lookup c).getD [c]

/-- The text as the terminal can show it.  A character set that is not known is taken for
ASCII; a name with a surrogate or a NUL can be none. -/
def sanitize (t : Terminal) (text : Text) : Except Failure Text :=
  if t.takesUtf8 then .ok text
  else if t.encoding.any CodePoint.isSurrogate then .error .unwritableText
  else if t.encoding.contains 0 then .error .embeddedNul
  else .ok (((Codec.named? t.encoding).getD .ascii).render (text.flatMap spellOut))

def spinner (t : Terminal) : Text := if t.takesUtf8 then "dots" else "line"

def ofEncoding (encoding : Text) : Terminal := ⟨some encoding, none⟩

end Terminal

def severityIcon (name : Text) : Text :=
  if name = ("Critical" : String) then [0x2717]
  else if name = ("Warning" : String) then [0x26A0]
  else [0x2022]

end HiddenLoads
