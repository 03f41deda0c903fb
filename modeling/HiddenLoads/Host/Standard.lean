/-
# HiddenLoads.Host.Standard -- a host to run the program with

`EnvFile.parse` reads files in which each line sets one variable, `NAME=value` or
`NAME="value"`.  Blank lines and lines that begin with `#` set nothing.  Blanks around the name
and the value do not count, and neither does a comment behind an unquoted value.  Of two lines
for one name the last one counts.  A byte order mark at the very beginning belongs to no line.

`Markup.escape` is for markup by tags in brackets: a backslash in front of an opening bracket
makes it stand for itself.
-/
import HiddenLoads.Host
import HiddenLoads.Text.Blank

namespace HiddenLoads

set_option autoImplicit false

namespace EnvFile

def byteOrderMark : CodePoint := 0xFEFF

def withoutMark (t : Text) : Text := if t.beginsIn byteOrderMark then t.drop 1 else t

/-- The lines of a text; line feed and carriage return both end a line. -/
def lines (t : Text) : List Text := (t.splitOn 0x0A).flatMap (Text.splitOn 0x0D)

/-- The text up to a `#` that follows a blank. -/
def beforeComment : (blankBefore : Bool) → Text → Text
  | _, [] => []
  | blankBefore, c :: rest =>
      if blankBefore && c = '#' then [] else c :: beforeComment c.isBlank rest

def value (t : Text) : Text :=
  match t.dropWhile CodePoint.isBlank with
  | [] => []
  | c :: rest =>
      if c = CodePoint.doubleQuote || c = CodePoint.apostrophe then rest.takeWhile (· ≠ c)
      else Text.stripRight (beforeComment false (c :: rest))

def line? (t : Text) : Option (Text × Text) :=
  let t := t.strip
  if t.beginsIn '#' || !t.contains (CodePoint.ofChar '=') then none
  else
    let (name, rest) := t.cut '='
    if Text.strip name = [] then none else some (Text.strip name, value rest)

def parse (t : Text) : Bindings Text :=
  ((lines (withoutMark t)).filterMap line?).foldl (fun b entry => b.bind entry.1 entry.2) .empty

end EnvFile

namespace Markup

def beginsTag (c : CodePoint) : Bool :=
  (0x61 ≤ c.val && c.val ≤ 0x7A) || c = '#' || c = '/' || c = '@'

/-- The text begins with a tag: a bracket, a character that can begin one, and no further
opening bracket before the closing one. -/
def atTag : Text → Bool
  | bracket :: c :: rest =>
      bracket.val = 0x5B && beginsTag c &&
        ((rest.dropWhile fun d => d.val ≠ 0x5B && d.val ≠ 0x5D).head? == some 0x5D)
  | _ => false

/-- The text with tags escaped, after `run` backslashes that have not been written yet. -/
def escapeFrom (run : Nat) : Text → Text
  | [] => List.replicate run CodePoint.backslash
  | c :: rest =>
      if c = CodePoint.backslash then escapeFrom (run + 1) rest
      else if atTag (c :: rest) then
        List.replicate (2 * run + 1) CodePoint.backslash ++ c :: escapeFrom 0 rest
      else List.replicate run CodePoint.backslash ++ c :: escapeFrom 0 rest

def endsInOneBackslash (t : Text) : Bool :=
  t.endsIn CodePoint.backslash && !Text.endsIn CodePoint.backslash t.dropLast

def escape (t : Text) : Text :=
  let escaped := escapeFrom 0 t
  if endsInOneBackslash escaped then escaped ++ [CodePoint.backslash] else escaped

end Markup

/-- Calls nest a thousand deep here; about ten are open when a document is read. -/
def Host.standard : Host where
  bindings := EnvFile.parse
  escape := Markup.escape
  nesting := 990

end HiddenLoads
