/-
# HiddenLoads.Proofs.Disguise -- a member access in brackets means what it means with a dot

`Buffer.from` can be written `Buffer["from"]`, `Buffer[x]` while `x` holds `from`, or
`Buffer["fr" + "om"]`, and a longer chain can be rewritten at any of its members.
`Expr.Disguises` relates a chain to all chains that come out of it in this way.

A disguised chain has the same segments (`Expr.segments_of_disguises`), so a call of it has the same
name.  The walk through the argument of a load also comes to what stands in the brackets; it finds
strings and names there, and no call (`Recovery.foldlM_of_textual`), so it ends as before.
-/
import HiddenLoads.Probe.Require
import HiddenLoads.Proofs.Folding
import HiddenLoads.Proofs.Rules

namespace HiddenLoads

set_option autoImplicit false

namespace Expr

/-- The expression is made of strings and names joined by `+`, and their texts in order are `text`. -/
structure ReadsAs (known : Bindings Text) (e : Expr) (text : Text) : Prop where
  textual : ∀ operand ∈ e.operands, operand.isTextual = true
  joined : (e.operands.mapM (literal? known)).map List.flatten = some text

/-- A chain of member accesses, and the same chain with some names moved into brackets. -/
inductive Disguises (known : Bindings Text) : Expr → Expr → Prop
  /-- What the chain begins with stays as it is. -/
  | root (e : Expr) : Disguises known e e
  /-- A member stays as it is. -/
  | keep {object object' : Expr} (span span' : Span) (property : Expr) (computed : Bool)
      (inner : Disguises known object object') :
      Disguises known (.member span object property computed) (.member span' object' property computed)
  /-- A name behind a dot is written in brackets. -/
  | bracket {object object' property : Expr} {name : Text} (span span' nameSpan : Span)
      (inner : Disguises known object object') (reads : ReadsAs known property name) :
      Disguises known (.member span object (.identifier nameSpan name) false)
        (.member span' object' property true)

variable {known : Bindings Text}

/-- What stands in the brackets is read as the name. -/
theorem propertyName?_of_readsAs {property : Expr} {name : Text}
    (reads : ReadsAs known property name) :
    propertyName? known property true = .ok (some name) := by
  have text : text? known property = .ok (some name) := by
    rw [text?_of_textual known reads.textual, reads.joined]
  cases property with
  | number span value => cases reads.textual _ (List.mem_singleton_self _)
  | _ => exact text

/-- A disguised chain has the same segments. -/
theorem segments_of_disguises {e e' : Expr} (disguises : Disguises known e e') :
    segments known e' = segments known e := by
  induction disguises with
  | root e => rfl
  | keep span span' property computed inner ih => rw [segments, segments, ih]
  | bracket span span' nameSpan inner reads ih =>
      rw [segments, segments, ih, propertyName?_of_readsAs reads]
      rfl

theorem name?_of_disguises {e e' : Expr} (disguises : Disguises known e e') :
    name? known e' = name? known e := by
  have same := segments_of_disguises disguises
  cases disguises with
  | root e => rfl
  | keep | bracket => rw [name?, name?, same]

theorem callee?_of_disguises {callee callee' : Expr} (disguises : Disguises known callee callee')
    (through : Bool) (span span' : Span) (arguments : List Expr) :
    callee? known through (.call span' callee' arguments) =
      callee? known through (.call span callee arguments) := by
  have same := name?_of_disguises disguises
  cases disguises with
  | root => cases callee <;> rfl
  | keep | bracket => exact same

end Expr

namespace Recovery

/-! ## The walk -/

variable {t : Tracer}

/-- Several expressions are walked one after the other. -/
theorem foldlM_reachedAll (es : List Expr) (r : Recovery) :
    (reachedAll es).foldlM (step t) r =
      es.foldlM (fun r e => (reached e).foldlM (step t) r) r := by
  induction es generalizing r with
  | nil =>
      rw [reachedAll]
      rfl
  | cons e es ih =>
      rw [reachedAll, List.foldlM_append, List.foldlM_cons]
      congr 1
      funext r'
      exact ih r'

/-- An expression that is no call gives what the expressions inside give. -/
theorem foldlM_of_plain {e : Expr} (passes : ∀ r, step t r e = .ok r) (plain : isEncoded e = false)
    (r : Recovery) :
    (reached e).foldlM (step t) r =
      e.children.foldlM (fun r child => (reached child).foldlM (step t) r) r := by
  rw [reached, plain, if_neg Bool.false_ne_true, List.foldlM_cons, passes, Outcome.ok_bind,
    foldlM_reachedAll]

theorem foldlM_member (span : Span) (object property : Expr) (computed : Bool) (r : Recovery) :
    (reached (.member span object property computed)).foldlM (step t) r =
      (reached object).foldlM (step t) r >>= fun r => (reached property).foldlM (step t) r := by
  rw [foldlM_of_plain (fun _ => rfl) rfl]
  simp only [Expr.children, List.foldlM_cons, List.foldlM_nil, bind_pure]

/-- Strings and names give nothing, however they are joined. -/
theorem foldlM_of_textual {e : Expr}
    (textual : ∀ operand ∈ e.operands, operand.isTextual = true) (r : Recovery) :
    (reached e).foldlM (step t) r = .ok r := by
  induction e using Expr.operands.induct with
  | case1 span left right first second =>
      rw [Expr.operands, if_pos rfl] at textual
      have here := first fun operand inside => textual operand (List.mem_append_left _ inside)
      have there := second fun operand inside => textual operand (List.mem_append_right _ inside)
      rw [foldlM_of_plain (fun _ => rfl) rfl]
      simp only [Expr.children, List.foldlM_cons, List.foldlM_nil, here, there, Outcome.ok_bind]
      rfl
  | case2 span operator left right other =>
      rw [Expr.operands, if_neg other] at textual
      cases textual _ (List.mem_singleton_self _)
  | case3 e leaf =>
      rw [Expr.operands.eq_2 e leaf] at textual
      have isTextual := textual e (List.mem_singleton_self _)
      cases e with
      | string | identifier => exact foldlM_of_plain (fun _ => rfl) rfl r
      | _ => cases isTextual

/-- The walk through a disguised chain finds what it finds in the chain. -/
theorem foldlM_of_disguises {e e' : Expr} (disguises : Expr.Disguises t.literals e e')
    (r : Recovery) : (reached e').foldlM (step t) r = (reached e).foldlM (step t) r := by
  induction disguises generalizing r with
  | root e => rfl
  | keep span span' property computed inner ih => rw [foldlM_member, foldlM_member, ih]
  | @bracket _ _ _ name span span' nameSpan inner reads ih =>
      have dotted : ∀ operand ∈ (Expr.identifier nameSpan name).operands,
          operand.isTextual = true := by simp [Expr.operands, Expr.isTextual]
      rw [foldlM_member, foldlM_member, ih]
      simp only [foldlM_of_textual reads.textual, foldlM_of_textual dotted]

/-- A call of a disguised chain is visited as a call of the chain. -/
theorem step_of_disguises {callee callee' : Expr}
    (disguises : Expr.Disguises t.literals callee callee') (span span' : Span)
    (arguments : List Expr) (r : Recovery) :
    step t r (.call span' callee' arguments) = step t r (.call span callee arguments) := by
  have same : calleeMeaning? t callee' = calleeMeaning? t callee := by
    rw [calleeMeaning?, calleeMeaning?, Expr.name?_of_disguises disguises]
  cases arguments with
  | nil => rfl
  | cons first more => rw [step, step, visit, visit, applyRules, applyRules, same]

theorem walk_of_disguises {callee callee' : Expr}
    (disguises : Expr.Disguises t.literals callee callee') (span span' : Span)
    (arguments : List Expr) :
    walk t (.call span' callee' arguments) = walk t (.call span callee arguments) := by
  have encoded : isEncoded (.call span' callee' arguments) =
      isEncoded (.call span callee arguments) := by cases arguments <;> rfl
  rw [walk_eq_foldlM, walk_eq_foldlM, reached, reached, encoded, List.foldlM_cons, List.foldlM_cons,
    step_of_disguises disguises span span']
  congr 1
  funext r
  split
  · rfl
  · rw [foldlM_reachedAll, foldlM_reachedAll]
    simp only [Expr.children, List.foldlM_cons, foldlM_of_disguises disguises]

end Recovery

namespace Probe.Require

variable {t : Tracer} {callee callee' : Expr}

theorem isLoad_of_disguises (disguises : Expr.Disguises t.literals callee callee')
    (span span' : Span) (arguments : List Expr) :
    isLoad (.call span' callee' arguments) t = isLoad (.call span callee arguments) t := by
  simp only [isLoad, Expr.callee?_of_disguises disguises false span span' arguments]

/-- A chain is no call, so a call of it is a load through `eval` in neither way of writing. -/
theorem isEvalLoad_of_disguises (disguises : Expr.Disguises t.literals callee callee')
    (span span' : Span) (arguments : List Expr) :
    isEvalLoad (.call span' callee' arguments) t = isEvalLoad (.call span callee arguments) t := by
  have same := Expr.callee?_of_disguises disguises true span span' arguments
  simp only [isEvalLoad, same]
  cases disguises <;> rfl

/-- A call of what a call of the chain gives may be one. -/
theorem isEvalLoad_of_inner_disguises (disguises : Expr.Disguises t.literals callee callee')
    (outer span span' : Span) (inner arguments : List Expr) :
    isEvalLoad (.call outer (.call span' callee' inner) arguments) t =
      isEvalLoad (.call outer (.call span callee inner) arguments) t := by
  have same := Expr.callee?_of_disguises disguises true span span' inner
  simp only [isEvalLoad, Expr.callee?, if_true, same]

/-- **A disguise changes nothing.**  If some names in the callee of a call are moved into brackets,
written as strings and names that hold strings, joined in any way, then the callee has the same
segments, the call is matched as a load and as a load through `eval` as before, and the walk through
the call recovers the same specifiers with the same suspicion. -/
theorem classified_alike_of_disguises (disguises : Expr.Disguises t.literals callee callee')
    (span span' : Span) (arguments : List Expr) :
    Expr.segments t.literals callee' = Expr.segments t.literals callee ∧
    isLoad (.call span' callee' arguments) t = isLoad (.call span callee arguments) t ∧
    isEvalLoad (.call span' callee' arguments) t = isEvalLoad (.call span callee arguments) t ∧
    (∀ outer more, isEvalLoad (.call outer (.call span' callee' arguments) more) t =
      isEvalLoad (.call outer (.call span callee arguments) more) t) ∧
    Recovery.walk t (.call span' callee' arguments) =
      Recovery.walk t (.call span callee arguments) := by
  refine ⟨Expr.segments_of_disguises disguises, isLoad_of_disguises disguises span span' arguments,
    isEvalLoad_of_disguises disguises span span' arguments, fun outer more => ?_,
    Recovery.walk_of_disguises disguises span span' arguments⟩
  exact isEvalLoad_of_inner_disguises disguises outer span span' arguments more

/-- `process.mainModule.require`. -/
def mainLoader : Expr :=
  .member .unknown
    (.member .unknown (.identifier .unknown "process") (.identifier .unknown "mainModule") false)
    (.identifier .unknown "require") false

/-- `process["main" + x]["require"]`. -/
def mainLoaderInBrackets : Expr :=
  .member .unknown
    (.member .unknown (.identifier .unknown "process")
      (.binary .unknown Expr.plus (.string .unknown "main") (.identifier .unknown "x")) true)
    (.string .unknown "require") true

/-- While `x` holds `Module`, a call of the second is a load because a call of the first is. -/
theorem mainLoaderInBrackets_isLoad :
    let t := { Tracer.default with literals := Bindings.empty.bind "x" "Module" }
    Expr.Disguises t.literals mainLoader mainLoaderInBrackets ∧
    isLoad (.call .unknown mainLoader [.string .unknown "fs"]) t =
      .ok ⟨true, some "process.mainModule.require"⟩ ∧
    isLoad (.call .unknown mainLoaderInBrackets [.string .unknown "fs"]) t =
      .ok ⟨true, some "process.mainModule.require"⟩ := by
  intro t
  have disguises : Expr.Disguises t.literals mainLoader mainLoaderInBrackets :=
    .bracket _ _ _ (.bracket _ _ _ (.root _) ⟨by decide, rfl⟩) ⟨by decide, rfl⟩
  have plain : isLoad (.call .unknown mainLoader [.string .unknown "fs"]) t =
      .ok ⟨true, some "process.mainModule.require"⟩ := rfl
  obtain ⟨_, loads, _⟩ :=
    classified_alike_of_disguises disguises .unknown .unknown [.string .unknown "fs"]
  exact ⟨disguises, plain, loads.trans plain⟩

end Probe.Require

end HiddenLoads
