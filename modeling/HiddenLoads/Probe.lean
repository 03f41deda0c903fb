/-
# HiddenLoads.Probe -- probes and how they are run on an expression

A probe looks for one kind of construct.  Its validators decide whether an expression is one,
the first that matches wins, and its resolver then records what it finds.  Probes are run in
order.  A resolver can ask not to go into the expression (`Signal.skip`) or to run no further
probe on it (`Signal.stop`).  A probe that breaks on a match keeps the later probes of its group
from running on the same expression, and all later ones if it has no group.
-/
import HiddenLoads.Analysis
import HiddenLoads.Expr

namespace HiddenLoads

set_option autoImplicit false

inductive Signal where
  | skip
  | stop
deriving DecidableEq, Repr

/-- The answer of a validator, with what it found out on the way. -/
structure Verdict (δ : Type) where
  matched : Bool
  data : δ
deriving Repr

/-- A validator looks at an expression and at what names stand for. -/
abbrev Validator (δ : Type) := Expr → Tracer → Except Failure (Verdict δ)

/-- A resolver records what it finds, given the data of the validator that matched. -/
abbrev Resolver (δ : Type) := Expr → Analysis → δ → Except Failure (Analysis × Option Signal)

structure Probe (δ : Type) where
  name : Text
  validators : List (Validator δ)
  resolve : Resolver δ
  teardown : Option (Analysis → Analysis)
  breaksOnMatch : Bool
  group : Option Text

namespace Probe

variable {δ : Type}

def firstMatch (e : Expr) (t : Tracer) : List (Validator δ) → Except Failure (Option δ)
  | [] => .ok none
  | validator :: rest => do
      let verdict ← validator e t
      if verdict.matched then .ok (some verdict.data) else firstMatch e t rest

def match? (p : Probe δ) (e : Expr) (t : Tracer) : Except Failure (Option δ) :=
  firstMatch e t p.validators

def inGroups (p : Probe δ) (groups : List Text) : Bool :=
  match p.group with
  | some group => groups.contains group
  | none => false

/-- Running the remaining probes on an expression, given the groups that are closed and whether
some resolver has asked to skip the inside of the expression. -/
def runFrom (e : Expr) :
    List (Probe δ) → (closed : List Text) → (skip : Bool) → Analysis →
      Except Failure (Analysis × Bool)
  | [], _, skip, a => .ok (a, skip)
  | p :: probes, closed, skip, a =>
      if p.inGroups closed then runFrom e probes closed skip a
      else do
        match ← p.match? e a.tracer with
        | none => runFrom e probes closed skip a
        | some data =>
            let (a, signal) ← p.resolve e a data
            if signal = some .stop then .ok (a, skip)
            else
              let skip := skip || signal = some .skip
              if p.breaksOnMatch then
                match p.group with
                | none => .ok (a, skip)
                | some group => runFrom e probes (group :: closed) skip a
              else runFrom e probes closed skip a

/-- Running probes on an expression; the answer tells whether to skip its inside. -/
def run (probes : List (Probe δ)) (e : Expr) (a : Analysis) : Except Failure (Analysis × Bool) :=
  runFrom e probes [] false a

/-- The hooks of the probes at the end of a pass, in order. -/
def finish (probes : List (Probe δ)) (a : Analysis) : Analysis :=
  probes.foldl (fun a p => match p.teardown with
    | some hook => hook a
    | none => a) a

end Probe

end HiddenLoads
