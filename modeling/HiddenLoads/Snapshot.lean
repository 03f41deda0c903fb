/-
# HiddenLoads.Snapshot -- a package with its syntax trees, in one document

A snapshot is a JSON object that lists the files of a working directory under `files`.  Each has
its `path`, its content as `text` or as `hex`, or is a directory if `dir` is set.  A source file
also has its syntax `tree`, a list of rows in pre-order, each the array of its kind, its field,
one if the grammar names it and zero if not, the offsets of its start and its end, and the number
of its children; `has_error` says that the grammar could not read all of it.  The variables of
the environment stand under `env`.
-/
import HiddenLoads.Host.Arguments
import HiddenLoads.Host.Standard

namespace HiddenLoads

set_option autoImplicit false

/-- The files of a working directory, what a grammar makes of them, and the environment. -/
structure Snapshot where
  files : Files
  trees : List (List UInt8 × Parsed)
  env : Environment

namespace Snapshot

def text? : Json → Option Text
  | .string s => some s
  | _ => none

def nat? : Json → Option Nat
  | .number (.integer (.ofNat n)) => some n
  | _ => none

def items : Json → List Json
  | .array items => items
  | _ => []

def isTrue : Json → Bool
  | .bool b => b
  | _ => false

/-- The value of a key, `null` if there is none. -/
def field (key : String) (j : Json) : Json := (j.get? (Text.ofString key)).getD .null

def content? (j : Json) : Option (List UInt8) :=
  match field "hex" j with
  | .string digits => Hex.octets? digits
  | _ => (text? (field "text" j)).bind Utf8.encode?

/-- A row of a tree with the number of its children. -/
def row? (j : Json) : Option (Row × Nat) :=
  match items j with
  | [kind, role, named, start, stop, count] => do
      let row : Row := ⟨.ofName (← text? kind), .ofName (← text? role), (← nat? named) = 1,
        ← nat? start, ← nat? stop⟩
      some (row, ← nat? count)
  | _ => none

def parsed? (j : Json) : Option Parsed := do
  let rows ← (items (field "tree" j)).mapM row?
  some ⟨← Tree.ofRows? rows, isTrue (field "has_error" j)⟩

def listed? (j : Json) : Option Listed := do
  let path ← text? (field "path" j)
  let parts := (FsPath.ofText path).parts
  if isTrue (field "dir" j) then some ⟨parts, none⟩ else some ⟨parts, some (← content? j)⟩

def environment : Json → Environment
  | .object fields =>
      fields.foldl (fun env entry => match entry.2 with
        | .string value => env.bind entry.1 value
        | _ => env) .empty
  | _ => .empty

def ofJson (base : List Text) (j : Json) : Snapshot :=
  let files := items (field "files" j)
  { files := ⟨base, files.filterMap listed?⟩
    trees := files.filterMap fun f => do some (← content? f, ← parsed? f)
    env := environment (field "env" j) }

/-- The grammar that gives each source the tree that the snapshot has for it. -/
def grammar (s : Snapshot) : Grammar := fun _ bytes =>
  (s.trees.lookup bytes).getD ⟨.empty, false⟩

def run (s : Snapshot) (terminal : Terminal) (args : List Text) : Command.Outcome :=
  Command.runArgs .standard Command.ofArgs s.files s.grammar (.start s.env) terminal args

end Snapshot

/-- A printed thing in plain lines: the title of a table, its columns and its rows. -/
def Printed.toText : Printed → Text
  | .line text => text
  | .table title columns rows =>
      Text.joinWith 0x0A (title :: (columns :: rows).map (Text.joinWith 0x09))

end HiddenLoads
