/-
# HiddenLoads.Path.Join -- joining path segments

`Join.path` joins its parts by slashes, empty parts left out, and brings the result into a
normal form: no empty segments and no `.`, and `..` only where nothing is left to go up from.
A leading slash stays, and so does a trailing one; nothing at all is `.`.

Normalizing alone (`Join.normalize`) keeps two slashes in front, as systems may give them a meaning
of their own, and takes more than two for one.  Joining makes one slash of them (`Join.singleRoot`).
-/
import HiddenLoads.Text

namespace HiddenLoads

set_option autoImplicit false

namespace Join

abbrev slash : CodePoint := '/'

def up : Text := ".."

def here : Text := "."

/-- One more segment on a path, which is kept in reverse. -/
def push (absolute : Bool) (path : List Text) (segment : Text) : List Text :=
  if segment = [] ∨ segment = here then path
  else if segment ≠ up then segment :: path
  else match path with
    | [] => if absolute then [] else [up]
    | last :: before => if last = up then up :: path else before

def segments (absolute : Bool) (t : Text) : List Text :=
  ((t.splitOn slash).foldl (push absolute) []).reverse

/-- The slashes in front that a path keeps: none, one, or exactly two. -/
def root (t : Text) : Text :=
  if !t.beginsIn slash then []
  else if [slash, slash].isPrefixOf t && !([slash, slash, slash].isPrefixOf t) then [slash, slash]
  else [slash]

/-- A path in normal form, without regard to a slash at its end. -/
def normalize (t : Text) : Text :=
  let normal := root t ++ Text.joinWith slash (segments (t.beginsIn slash) t)
  if normal = [] then here else normal

/-- Slashes in front made one, if there are two or more. -/
def singleRoot (t : Text) : Text :=
  if [slash, slash].isPrefixOf t then slash :: t.dropWhile (· = slash) else t

/-- The parts as one path in normal form. -/
def path (parts : List Text) : Text :=
  let joined := Text.joinWith slash (parts.filter (· ≠ []))
  if joined = [] then here
  else
    let normal := singleRoot (normalize joined)
    if joined.endsIn slash ∧ ¬ normal.endsIn slash then normal ++ [slash] else normal

end Join

end HiddenLoads
