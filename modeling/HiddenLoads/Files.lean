/-
# HiddenLoads.Files -- files below a working directory

The files that an analysis can see are listed with their paths relative to the working
directory.  Directories exist because something lies in them or because they are listed.  A
path is followed segment by segment: only directories can be entered, and `..` leaves one.
Names of more than `Files.nameLimit` octets, paths of more than `Files.pathLimit`, and paths that
the system does not take at all cannot be followed (`Files.find`).
-/
import HiddenLoads.Path.FsPath
import HiddenLoads.Text.Native

namespace HiddenLoads

set_option autoImplicit false

inductive Found where
  | absent
  | directory
  | file (bytes : List UInt8)
deriving DecidableEq, Repr

def Found.isFile : Found → Bool
  | .file _ => true
  | _ => false

/-- One listed file, or a directory if it has no content. -/
structure Listed where
  parts : List Text
  content : Option (List UInt8)
deriving DecidableEq, Repr

/-- The working directory as an absolute path, and what lies below it. -/
structure Files where
  base : List Text
  listed : List Listed
deriving Repr

namespace Files

def below (fs : Files) (parts : List Text) : Found :=
  match fs.listed.reverse.find? fun entry => entry.parts = parts with
  | some ⟨_, some bytes⟩ => .file bytes
  | some ⟨_, none⟩ => .directory
  | none =>
      if parts = [] ∨ fs.listed.any fun entry => parts.isPrefixOf entry.parts then .directory
      else .absent

/-- What lies at an absolute place.  Nothing is known outside the working directory but the
directories that lead to it. -/
def located (fs : Files) (place : List Text) : Found :=
  if fs.base.isPrefixOf place then fs.below (place.drop fs.base.length)
  else if place.isPrefixOf fs.base then .directory
  else .absent

/-- The most octets that a name may have. -/
def nameLimit : Nat := 255

def pathLimit : Nat := 4095

/-- The place that some segments lead to from another place, if there is one. -/
def follow (fs : Files) (place : List Text) : List Text → Except Failure (Option (List Text))
  | [] => .ok (some place)
  | part :: parts =>
      match fs.located place with
      | .directory =>
          if part = (".." : String) then follow fs place.dropLast parts
          else if nameLimit < Native.size part then .error .nameTooLong
          else follow fs (place ++ [part]) parts
      | _ => .ok none

def place? (fs : Files) (p : FsPath) : Except Failure (Option (List Text)) := do
  let octets ← Native.encode p.toText
  if pathLimit < octets.length then .error .nameTooLong
  else match p.root with
    | .relative => fs.follow fs.base p.parts
    | _ => fs.follow [] p.parts

def find (fs : Files) (p : FsPath) : Except Failure Found := do
  match ← fs.place? p with
  | some place => .ok (fs.located place)
  | none => .ok .absent

/-- What a path leads to, where paths that the system does not take lead nowhere. -/
def look (fs : Files) (p : FsPath) : Except Failure Found :=
  match fs.find p with
  | .error .nameTooLong => .error .nameTooLong
  | .error _ => .ok .absent
  | .ok found => .ok found

/-- The paths, relative to a directory, of all files below it, each once. -/
def allBelow (fs : Files) (p : FsPath) : List (List Text) :=
  match fs.place? p with
  | .ok (some place) =>
      if fs.located place = .directory then
        (fs.listed.filterMap fun entry =>
          let whole := fs.base ++ entry.parts
          if place.isPrefixOf whole && entry.content.isSome then some (whole.drop place.length)
          else none).eraseDups
      else []
  | _ => []

end Files

end HiddenLoads
