/-
# HiddenLoads.Tracer -- what names stand for during a pass

A tracer knows which names hold literals, which are aliases of a traced name (`require`,
`Buffer.from`), and which stand for a whole module.  `Tracer.lookup` follows a dotted name to
the traced name that it means: aliases of its first segment are replaced by what they stand
for, and global objects in front vanish.

An alias can stand for a longer name with the same first segment, so following a name may go
on for ever.  A name that comes back is not traced; a name that grows beyond
`Tracer.lengthLimit` keeps growing, because some alias has been replaced inside its own
replacement, and `lookup` fails with `Failure.endlessAlias`.
-/
import HiddenLoads.Bindings
import HiddenLoads.Failure

namespace HiddenLoads

set_option autoImplicit false

/-- What a traced name or an alias of it stands for: the name that it is reported under, and
the full dotted name. -/
structure Traced where
  name : Text
  resolved : Text
deriving DecidableEq, Repr

/-- The state of a pass. -/
structure Tracer where
  literals : Bindings Text
  aliases : Bindings Traced
  modules : Bindings Text
  traced : Bindings Traced
deriving Repr

namespace Tracer

def empty : Tracer := ⟨.empty, .empty, .empty, .empty⟩

/-- The objects whose members are the globals themselves. -/
def globalObjects : List Text := ["globalThis", "global", "window", "self"]

/-- The names that are traced by default, and what they are reported under. -/
def defaults : List (Text × Text) := [
    ("require", "require"), ("module.require", "require"),
    ("process.mainModule.require", "require"), ("require.resolve", "require.resolve"),
    ("eval", "eval"), ("Function", "Function"), ("atob", "atob"), ("Buffer.from", "Buffer.from")]

/-- The tracer that also traces `dotted`, reported under `name` unless that is empty. -/
def trace (t : Tracer) (dotted : Text) (name : Text) : Tracer :=
  { t with traced := t.traced.bind dotted ⟨if name = [] then dotted else name, dotted⟩ }

def default : Tracer :=
  defaults.foldl (fun t entry => t.trace entry.1 entry.2) empty

/-! ## Following a name -/

inductive Move where
  | found (target : Traced)
  | untraced
  | rename (name : Text)
deriving DecidableEq, Repr

def dot (left right : Text) : Text := left ++ CodePoint.ofChar '.' :: right

def fromModule (t : Tracer) (module member : Text) : Traced :=
  (t.traced.get? (dot module member)).getD ⟨dot module member, dot module member⟩

/-- The first step of following a name: the name itself, then the module, the alias or the
global object that its first segment is. -/
def move (t : Tracer) (name : Text) : Move :=
  match t.aliases.get? name with
  | some target => .found target
  | none =>
    match t.traced.get? name with
    | some target => .found target
    | none =>
      let (head, rest) := name.cut '.'
      if rest = [] then .untraced
      else match t.modules.get? head with
        | some module => .found (t.fromModule module rest)
        | none =>
          match t.aliases.get? head with
          | some target => .rename (dot target.resolved rest)
          | none => if globalObjects.contains head then .rename rest else .untraced

def segmentCount (name : Text) : Nat := name.count (CodePoint.ofChar '.') + 1

/-- The most segments that any name or alias of the tracer has. -/
def longestKey (t : Tracer) : Nat :=
  ((t.aliases.entries.map fun entry => segmentCount entry.1) ++
    (t.traced.entries.map fun entry => segmentCount entry.1)).foldl max 2

def longestTarget (t : Tracer) : Nat :=
  (t.aliases.entries.map fun entry => segmentCount entry.2.resolved).foldl max 1

/-- The most segments that a name can have while it is followed to an end.  Beyond the longest
key a step depends on the first segment alone, and there are not enough aliases to grow so far
without one being replaced inside its own replacement. -/
def lengthLimit (t : Tracer) (name : Text) : Nat :=
  max (segmentCount name) t.longestKey + (t.aliases.entries.length + 2) * t.longestTarget

/-- The number of segments from which all names on the way are made. -/
def alphabetSize (t : Tracer) (name : Text) : Nat :=
  segmentCount name +
    (t.aliases.entries.map fun entry => segmentCount entry.2.resolved).foldl (· + ·) 0

/-- More steps than there are names of `lengthLimit` segments. -/
def stepLimit (t : Tracer) (name : Text) : Nat :=
  Nat.pow (t.alphabetSize name + 1) (t.lengthLimit name) + 1

/-- Following a name after the names in `seen`. -/
def follow (t : Tracer) (limit : Nat) :
    (fuel : Nat) → (seen : List Text) → Text → Except Failure (Option Traced)
  | 0, _, _ => .error .endlessAlias
  | fuel + 1, seen, name =>
      if seen.contains name then .ok none
      else if limit < segmentCount name then .error .endlessAlias
      else match t.move name with
        | .found target => .ok (some target)
        | .untraced => .ok none
        | .rename next => follow t limit fuel (name :: seen) next

/-- The traced name that a dotted name means. -/
def lookup (t : Tracer) (name : Text) : Except Failure (Option Traced) :=
  if name = [] then .ok none
  else t.follow (t.lengthLimit name) (t.stepLimit name) [] name

def lookup? (t : Tracer) : Option Text → Except Failure (Option Traced)
  | some name => t.lookup name
  | none => .ok none

def module? (t : Tracer) (name : Text) : Option Text := t.modules.get? name

end Tracer

end HiddenLoads
