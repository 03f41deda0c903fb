/-
# HiddenLoads.Tracer.Observe -- what declarations and assignments bind

Observing a declaration or an assignment changes the bindings of the names that it assigns:
a name gets a literal, a module or an alias, in this order of preference, or loses whatever it
had.  The value is read before the name is bound, so `x = x + "tp"` sees the old `x`, and a
destructuring pattern reads all its keys before it binds any name.
-/
import HiddenLoads.Expr.Value
import HiddenLoads.Specifier
import HiddenLoads.Tracer

namespace HiddenLoads

set_option autoImplicit false

namespace Tracer

/-- The name under which module loaders are reported. -/
def loader : Text := "require"

def forget (t : Tracer) (name : Text) : Tracer :=
  { t with
    literals := t.literals.forget name
    aliases := t.aliases.forget name
    modules := t.modules.forget name }

/-- The module that a call loads, if the call is to a loader and names a module. -/
def requiredModule? (t : Tracer) : Expr → Except Failure (Option Text)
  | .call span callee (first :: more) => do
      let name ← Expr.callee? t.literals false (.call span callee (first :: more))
      match ← t.lookup? name with
      | some target =>
          if target.name = loader then
            match first.literal? t.literals with
            | some specifier =>
                .ok (if specifier = [] then none else some (Specifier.bare specifier))
            | none => .ok none
          else .ok none
      | none => .ok none
  | _ => .ok none

def isAboveTraced (t : Tracer) (name : Text) : Bool :=
  t.traced.entries.any fun entry => (name ++ [CodePoint.ofChar '.']).isPrefixOf entry.1

/-- The name without global objects in front of it, up to `fuel` of them. -/
def stripGlobalsFrom : (fuel : Nat) → Text → Text
  | 0, name => name
  | fuel + 1, name =>
      let (head, rest) := name.cut '.'
      if rest ≠ [] ∧ globalObjects.contains head then stripGlobalsFrom fuel rest else name

def stripGlobals (name : Text) : Text := stripGlobalsFrom name.length name

/-- What a value gives to the name that it is assigned to. -/
inductive Binding where
  | literal (text : Text)
  | module (name : Text)
  | alias (target : Traced)
  | nothing
deriving DecidableEq, Repr

/-- What a dotted name gives to another name: the traced name that it means, the module that it
stands for, or the way to traced names below it. -/
def bindingOfName (t : Tracer) (dotted : Text) : Except Failure Binding := do
  match ← t.lookup dotted with
  | some target => .ok (.alias target)
  | none =>
      match t.modules.get? dotted with
      | some module => .ok (.module module)
      | none =>
          let canonical := stripGlobals dotted
          .ok (if t.isAboveTraced canonical then .alias ⟨canonical, canonical⟩ else .nothing)

def bindingOf (t : Tracer) (name : Text) (value : Expr) : Except Failure Binding := do
  match ← Expr.text? t.literals value with
  | some text => .ok (.literal text)
  | none =>
      match ← t.requiredModule? value with
      | some module => .ok (.module module)
      | none =>
          match ← Expr.name? t.literals value with
          | some dotted => if dotted = name then .ok .nothing else t.bindingOfName dotted
          | none => .ok .nothing

def assign (t : Tracer) (name : Text) (binding : Binding) : Tracer :=
  let cleared := t.forget name
  match binding with
  | .literal text => { cleared with literals := cleared.literals.bind name text }
  | .module module => { cleared with modules := cleared.modules.bind name module }
  | .alias target => { cleared with aliases := cleared.aliases.bind name target }
  | .nothing => cleared

/-- What the keys of a pattern mean, in order: members of the loaded module, or members of what
the value names. -/
def resolveEntries (t : Tracer) (value : Expr) (entries : List Entry) :
    Except Failure (List (Text × Option Traced)) := do
  match ← t.requiredModule? value with
  | some module => .ok (entries.map fun entry => (entry.name, some (t.fromModule module entry.key)))
  | none =>
      match ← Expr.name? t.literals value with
      | some dotted =>
          entries.mapM fun entry => do .ok (entry.name, ← t.lookup (dot dotted entry.key))
      | none => .ok (entries.map fun entry => (entry.name, none))

/-- The tracer with the names of a pattern bound to what their keys mean; of two entries with
one name the last one counts. -/
def assignEntries (t : Tracer) (resolved : List (Text × Option Traced)) : Tracer :=
  resolved.foldl
    (fun t entry =>
      t.assign entry.1 <|
        match entry.2 with
        | some target => .alias target
        | none => .nothing)
    t

def bind (t : Tracer) (target value : Expr) : Except Failure Tracer :=
  match target with
  | .pattern _ entries => do .ok (t.assignEntries (← t.resolveEntries value entries))
  | .identifier _ name => do .ok (t.assign name (← t.bindingOf name value))
  | _ => .ok t

def append (t : Tracer) (name : Text) (value : Expr) : Except Failure Tracer := do
  match t.literals.get? name, ← Expr.text? t.literals value with
  | some current, some addition =>
      .ok { t with literals := t.literals.bind name (current ++ addition) }
  | _, _ => .ok (t.forget name)

/-- The tracer after an expression; only declarations and assignments change it. -/
def observe (t : Tracer) : Expr → Except Failure Tracer
  | .definition _ target value => t.bind target value
  | .declaration _ (.identifier _ name) => .ok (t.forget name)
  | .assignment _ operator target value =>
      if operator = ("=" : String) then t.bind target value
      else match target with
        | .identifier _ name =>
            if operator = ("+=" : String) then t.append name value else .ok (t.forget name)
        | _ => .ok t
  | _ => .ok t

end Tracer

end HiddenLoads
