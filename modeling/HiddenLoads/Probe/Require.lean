/-
# HiddenLoads.Probe.Require -- loads through `require`

The probe matches calls of `require` and of its aliases, and calls of the result of
`eval("require")`.  The specifier is the first argument: a string, a name that holds a literal,
a `+` that folds, an array whose pieces join, or what a call recovers.  Everything else is an
unsafe import.
-/
import HiddenLoads.Probe
import HiddenLoads.Recovery
import HiddenLoads.Tracer.Observe

namespace HiddenLoads

set_option autoImplicit false

namespace Probe.Require

/-- The name under which `eval` is reported. -/
def evaluator : Text := "eval"

/-- The call is to a loader; the data is the name by which it is called. -/
def isLoad : Validator (Option Text) := fun e t =>
  match e with
  | .call span callee arguments => do
      match ← Expr.callee? t.literals false (.call span callee arguments) with
      | none => .ok ⟨false, none⟩
      | some name =>
          match ← t.lookup name with
          | some target => .ok ⟨target.name = Tracer.loader, some name⟩
          | none => .ok ⟨false, some name⟩
  | _ => .ok ⟨false, none⟩

/-- The call is to what `eval("require")` gives. -/
def isEvalLoad : Validator (Option Text) := fun e t =>
  match e with
  | .call span callee arguments => do
      let name ← Expr.callee? t.literals true (.call span callee arguments)
      let reported := match ← t.lookup? name with
        | some target => some target.name
        | none => name
      if reported = some evaluator then
        match callee with
        | .call _ _ inner =>
            .ok ⟨(Expr.literals t.literals inner).contains Tracer.loader, some evaluator⟩
        | _ => .ok ⟨false, none⟩
      else .ok ⟨false, none⟩
  | _ => .ok ⟨false, none⟩

/-- A specifier that was read off; a blank one is an unsafe import. -/
def addSpecifier (a : Analysis) (specifier : Text) (location : Span) : Analysis :=
  if specifier.isBlank then a.addUnsafe location
  else a.addDependency specifier (some location) false

def addSpecifier? (a : Analysis) (specifier : Option Text) (location : Span) : Analysis :=
  match specifier with
  | some text => addSpecifier a text location
  | none => a.addUnsafe location

def addRecovered (a : Analysis) (r : Recovery) (location : Span) : Analysis :=
  let a := r.specifiers.foldl (fun a s => a.addDependency s (some location) true) a
  if r.suspicious then a.addUnsafe location else a

def resolveArgument (location : Span) (argument : Expr) (a : Analysis) :
    Except Failure (Analysis × Option Signal) :=
  match argument with
  | .identifier _ name => .ok (addSpecifier? a (a.tracer.literals.get? name) location, none)
  | .string _ value => .ok (addSpecifier a value location, none)
  | .array span elements =>
      let joined := Text.strip (Expr.pieces a.tracer.literals (.array span elements)).flatten
      .ok (if joined = [] then a.addUnsafe location
        else a.addDependency joined (some location) false, none)
  | .binary span operator left right => do
      let text ← Expr.text? a.tracer.literals (.binary span operator left right)
      .ok (addSpecifier? a text location, none)
  | .call span callee arguments => do
      let recovered ← Recovery.walk a.tracer (.call span callee arguments)
      .ok (addRecovered a recovered location, some .skip)
  | _ => .ok (a.addUnsafe location, none)

/-- The records of a load; a load without arguments has none. -/
def resolve : Resolver (Option Text) := fun e a name =>
  match e with
  | .call location _ (argument :: _) =>
      let a := if name = some evaluator then { a with viaEval := true } else a
      resolveArgument location argument a
  | _ => .ok (a, none)

/-- The mark of `eval` ends with the pass. -/
def teardown (a : Analysis) : Analysis := { a with viaEval := false }

end Probe.Require

def Probe.loadGroup : Text := "import"

def Probe.require : Probe (Option Text) where
  name := "require"
  validators := [Probe.Require.isLoad, Probe.Require.isEvalLoad]
  resolve := Probe.Require.resolve
  teardown := some Probe.Require.teardown
  breaksOnMatch := true
  group := some Probe.loadGroup

end HiddenLoads
