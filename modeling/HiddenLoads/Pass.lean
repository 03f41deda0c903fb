/-
# HiddenLoads.Pass -- one pass over a source

A pass visits every expression once, in source order.  The tracer observes an expression before
the probes run on it, and the inside of an expression is visited next unless a probe asked to
skip it.  At the end the hooks of the probes run.  The pass keeps its own stack, since hostile
sources nest deeply; it fails where the tree lacks a part.
-/
import HiddenLoads.Expr.OfTree
import HiddenLoads.Language
import HiddenLoads.Probe.Import
import HiddenLoads.Probe.Require

namespace HiddenLoads

set_option autoImplicit false

namespace Pass

variable {δ : Type}

/-- One expression: the tracer observes it and the probes run on it.  The answer holds the
expressions to visit next. -/
def visit (probes : List (Probe δ)) (e : Expr) (a : Analysis) :
    Except Failure (Analysis × List Expr) := do
  let tracer ← a.tracer.observe e
  let (a, skip) ← Probe.run probes e { a with tracer }
  if skip then .ok (a, [])
  else if e.isMissing then .error .missingNode
  else .ok (a, e.children)

/-- Visiting the expressions of a stack, at most `fuel` of them. -/
def walkFrom (probes : List (Probe δ)) :
    (fuel : Nat) → List Expr → Analysis → Except Failure Analysis
  | 0, _, a => .ok a
  | _ + 1, [], a => .ok a
  | fuel + 1, e :: stack, a => do
      let (a, inside) ← visit probes e a
      walkFrom probes fuel (inside ++ stack) a

def walk (probes : List (Probe δ)) (root : Expr) (a : Analysis) : Except Failure Analysis := do
  .ok (Probe.finish probes (← walkFrom probes root.size [root] a))

def defaultProbes : List (Probe (Option Text)) := [Probe.require, Probe.importing]

end Pass

/-- What a grammar makes of some octets. -/
structure Parsed where
  tree : Tree
  hasErrors : Bool
deriving Repr

/-- A grammar makes a tree of any octets, marking what it could not read. -/
abbrev Grammar := Language → List UInt8 → Parsed

def Grammar.convert (grammar : Grammar) (language : Language) (bytes : List UInt8) :
    Except Failure Expr :=
  Expr.ofTree (Source.ofBytes bytes) (grammar language bytes).tree

def Grammar.analyze (grammar : Grammar) (probes : List (Probe (Option Text))) (language : Language)
    (file : Text) (bytes : List UInt8) : Except Failure Analysis := do
  let root ← grammar.convert language bytes
  Pass.walk probes root (.start file (grammar language bytes).hasErrors)

def Grammar.analyzeText (grammar : Grammar) (probes : List (Probe (Option Text)))
    (language file text : Text) : Except Failure Analysis := do
  let language ← Language.ofName language
  match Utf8.encode? text with
  | some bytes => grammar.analyze probes language file bytes
  | none => .error .unwritableText

end HiddenLoads
