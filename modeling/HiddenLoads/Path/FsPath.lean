/-
# HiddenLoads.Path.FsPath -- paths of files, read lexically

A path is relative, or starts at the root; exactly two leading slashes are a root of their
own.  Empty segments and `.` vanish when a path is read, `..` stays.  The suffix of a file is
what follows the last dot of its name, dot included, unless that dot is the first or the last
character.  Paths are ordered segment by segment.
-/
import HiddenLoads.Text

namespace HiddenLoads

set_option autoImplicit false

inductive PathRoot where
  | relative
  | slash
  | doubleSlash
deriving DecidableEq, Repr

structure FsPath where
  root : PathRoot
  parts : List Text
deriving DecidableEq, Repr

namespace FsPath

/-- The root that leading slashes name. -/
def rootOf (t : Text) : PathRoot :=
  match (t.takeWhile (· = CodePoint.ofChar '/')).length with
  | 0 => .relative
  | 2 => .doubleSlash
  | _ => .slash

def ofText (t : Text) : FsPath :=
  ⟨rootOf t, (t.splitOn '/').filter fun part => part ≠ [] ∧ part ≠ ("." : String)⟩

def rootText : PathRoot → Text
  | .relative => []
  | .slash => "/"
  | .doubleSlash => "//"

/-- The path as text, `.` if it is empty. -/
def toText (p : FsPath) : Text :=
  let text := rootText p.root ++ Text.joinWith '/' p.parts
  if text = [] then "." else text

def name (p : FsPath) : Text := p.parts.getLast?.getD []

def suffixOf (name : Text) : Text :=
  let extension := (name.reverse.takeWhile (· ≠ CodePoint.ofChar '.')).reverse
  let stem := name.length - extension.length
  if extension = [] ∨ stem ≤ 1 then [] else CodePoint.ofChar '.' :: extension

def suffix (p : FsPath) : Text := suffixOf p.name

def child (p : FsPath) (part : Text) : FsPath := ⟨p.root, p.parts ++ [part]⟩

def parent (p : FsPath) : FsPath := ⟨p.root, p.parts.dropLast⟩

/-- The path seen from `base`, if it lies below it. -/
def relativeTo? (p base : FsPath) : Option FsPath :=
  if p.root = base.root ∧ base.parts.isPrefixOf p.parts then
    some ⟨.relative, p.parts.drop base.parts.length⟩
  else none

def partsLe : List Text → List Text → Bool
  | [], _ => true
  | _ :: _, [] => false
  | a :: as, b :: bs => if a = b then partsLe as bs else a.le b

/-- The path as it is shown in a report about `root`: relative to it, or else as it is. -/
def display (file : Text) (root : FsPath) : Text :=
  match (ofText file).relativeTo? root with
  | some inside => inside.toText
  | none => file

/-- Going up is taken literally: `..` removes the segment before it, at the root nothing. -/
def climb : List Text → List Text → List Text
  | done, [] => done.reverse
  | done, part :: rest =>
      if part = (".." : String) then climb done.tail rest else climb (part :: done) rest

/-- The absolute path, without `..`, that a path means in the directory `base`. -/
def resolve (base : List Text) (p : FsPath) : FsPath :=
  match p.root with
  | .relative => ⟨.slash, climb [] (base ++ p.parts)⟩
  | _ => ⟨.slash, climb [] p.parts⟩

end FsPath

end HiddenLoads
