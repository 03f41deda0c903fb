/-
# HiddenLoads.Proofs.Copies -- copying an object, and asking the copy for a member

After `const a = b` the member `a.m` should mean what `b.m` meant.  What a copied name stands for
depends on its kind: a traced name or an alias, a module, a name on the way to traced names, a global
object, or nothing that is known.  `Tracer.Binding.member` says what a binding makes of a member, and
a fresh name gives its members just that (`lookup_member`).

The copy agrees with the original but for two cases (`Tracer.Hides`):

* a global object gives nothing to its copy, although its members are the globals themselves;
* a member with a meaning of its own, such as `Buffer.from`, keeps it while `Buffer` is bound to
  something else, and the copy of `Buffer` only has what that is.
-/
import HiddenLoads.Proofs.Destructuring
import HiddenLoads.Proofs.Following

namespace HiddenLoads

set_option autoImplicit false

namespace Tracer

def Binding.member (t : Tracer) (member : Text) : Binding → Except Failure (Option Traced)
  | .alias target => t.lookup (dot target.resolved member)
  | .module source => .ok (some (t.fromModule source member))
  | .literal _ | .nothing => .ok none

/-- The tracer knows nothing of the name, nor of any member of it. -/
structure Fresh (t : Tracer) (name : Text) : Prop where
  whole : CodePoint.ofChar '.' ∉ name
  ordinary : name ∉ globalObjects
  unbound : t.Holds name .nothing
  traced : ∀ entry ∈ t.traced.entries, (entry.1.cut '.').1 ≠ name
  aliases : ∀ entry ∈ t.aliases.entries, (entry.1.cut '.').1 ≠ name

/-- The copy of a name hides a member of it. -/
inductive Hides (t : Tracer) (name member : Text) : Prop
  /-- The name is a global object, and the member a global that means something. -/
  | global (object : name ∈ globalObjects) (unbound : t.Holds name .nothing)
      (unknown : t.own? (dot name member) = none) (means : t.lookup member ≠ .ok none)
  /-- The member has a meaning of its own, which is not the one that the binding of the name
  makes of it. -/
  | own {binding : Binding} {own : Traced} (gives : t.bindingOfName name = .ok binding)
      (known : t.own? (dot name member) = some own)
      (other : binding.member t member ≠ .ok (some own))

/-- The member of what the copied name stands for does not lead back to the copy. -/
def Apart (t : Tracer) (copy name member : Text) : Prop :=
  ∀ target, t.bindingOfName name = .ok (.alias target) →
    t.Avoids copy (dot target.resolved member)

variable {t : Tracer}

/-! ## Fresh names -/

section Fresh

variable {copy : Text} (fresh : t.Fresh copy)

include fresh

/-- Nothing that begins with a fresh name is known by itself. -/
theorem Fresh.own?_eq_none {name : Text} (first : (name.cut '.').1 = copy) : t.own? name = none := by
  rw [own?, Option.or_eq_none_iff]
  constructor
  · by_contra isAlias
    obtain ⟨target, found⟩ := Option.ne_none_iff_exists'.1 isAlias
    exact fresh.aliases _ (Bindings.mem_of_get? found) first
  · by_contra isTraced
    obtain ⟨target, found⟩ := Option.ne_none_iff_exists'.1 isTraced
    exact fresh.traced _ (Bindings.mem_of_get? found) first

theorem Fresh.not_isAboveTraced : t.isAboveTraced copy = false := by
  rw [isAboveTraced, List.any_eq_false]
  intro entry inside below
  obtain ⟨rest, split⟩ := List.isPrefixOf_iff_prefix.1 below
  rw [List.append_assoc] at split
  apply fresh.traced entry inside
  rw [← split]
  exact congrArg Prod.fst (cut_dot fresh.whole rest)

/-- Following stops at a fresh name and at its members. -/
theorem Fresh.move {name : Text} (first : (name.cut '.').1 = copy) : t.move name = .untraced := by
  obtain ⟨plain, untraced⟩ := Option.or_eq_none_iff.1 (fresh.own?_eq_none first)
  simp only [Tracer.move, plain, untraced, first, fresh.unbound.module, fresh.unbound.target,
    List.contains_iff_mem, fresh.ordinary, Binding.module?, Binding.target?, if_false, ite_self]

/-- The way to a traced name does not come by a fresh name. -/
theorem Fresh.avoids {name : Text} {target : Traced} (found : t.lookup name = .ok (some target)) :
    t.Avoids copy name := by
  intro other leads first
  have named : name ≠ [] := by
    rintro rfl
    cases found
  obtain ⟨last, way, ends⟩ := answers_some_iff.1 (answers_of_lookup named found)
  have stuck := fresh.move first
  have unique : Relator.RightUnique t.Renames := fun _ _ _ step step' => step.unique step'
  have same : other = last := by
    rcases Relation.ReflTransGen.total_of_right_unique unique leads way with onward | back
    · rcases Relation.ReflTransGen.cases_head onward with same | ⟨next, step, -⟩
      · exact same
      · rw [Renames, stuck] at step
        cases step
    · rcases Relation.ReflTransGen.cases_head back with same | ⟨next, step, -⟩
      · exact same.symm
      · rw [Renames, ends] at step
        cases step
  rw [same, ends] at stuck
  cases stuck

end Fresh

/-! ## The copy -/

/-- A name that is neither a global object nor known with its members gives them what its binding
makes of them. -/
theorem lookup_member {name member : Text} {binding : Binding}
    (whole : CodePoint.ofChar '.' ∉ name) (ordinary : name ∉ globalObjects) (more : member ≠ [])
    (unknown : t.own? (dot name member) = none) (holds : t.Holds name binding) :
    t.lookup (dot name member) = binding.member t member := by
  obtain ⟨-, target, module⟩ := holds
  cases binding with
  | «alias» target' => exact lookup_of_renames (move_of_alias whole more unknown module target)
  | module source =>
      rw [lookup_eq_of_move t (dot_ne_nil name member), move_of_module whole more unknown module]
      rfl
  | literal _ | nothing =>
      rw [lookup_eq_of_move t (dot_ne_nil name member),
        move_of_unbound whole more unknown module target, if_neg ordinary]
      rfl

/-- A fresh name gives its members what it is assigned. -/
theorem lookup_assign {copy name member : Text} {binding : Binding} (fresh : t.Fresh copy)
    (more : member ≠ []) (gives : t.bindingOfName name = .ok binding)
    (apart : t.Apart copy name member) :
    (t.assign copy binding).lookup (dot copy member) = binding.member t member := by
  have touches := assign_touches t copy binding
  have longer : dot copy member ∉ [copy] := by
    rw [List.mem_singleton]
    intro same
    have dotted : CodePoint.ofChar '.' ∈ dot copy member := by simp [dot]
    rw [same] at dotted
    exact fresh.whole dotted
  have unknown : (t.assign copy binding).own? (dot copy member) = none := by
    rw [own?, touches.aliases _ longer, touches.traced]
    exact fresh.own?_eq_none (congrArg Prod.fst (cut_dot fresh.whole member))
  rw [lookup_member fresh.whole fresh.ordinary more unknown (holds_assign t copy binding)]
  cases binding with
  | «alias» target => exact lookup_of_avoids touches fresh.whole (apart target gives)
  | module source => simp only [Binding.member, fromModule, touches.traced]
  | literal _ | nothing => rfl

/-! ## What is hidden -/

theorem hides_iff_of_own {name member : Text} {binding : Binding} {own : Traced}
    (gives : t.bindingOfName name = .ok binding) (known : t.own? (dot name member) = some own) :
    t.Hides name member ↔ binding.member t member ≠ .ok (some own) := by
  refine ⟨?_, fun other => .own gives known other⟩
  rintro (⟨-, -, unknown, -⟩ | ⟨gives', known', other⟩)
  · cases known.symm.trans unknown
  · cases gives.symm.trans gives'
    cases known.symm.trans known'
    exact other

theorem hides_iff_of_unknown {name member : Text} (unknown : t.own? (dot name member) = none) :
    t.Hides name member ↔
      name ∈ globalObjects ∧ t.Holds name .nothing ∧ t.lookup member ≠ .ok none := by
  constructor
  · rintro (⟨object, unbound, -, means⟩ | ⟨-, known, -⟩)
    · exact ⟨object, unbound, means⟩
    · cases unknown.symm.trans known
  · rintro ⟨object, unbound, means⟩
    exact .global object unbound unknown means

/-! ## The original -/

theorem stripGlobals_of_whole {name : Text} (whole : CodePoint.ofChar '.' ∉ name) :
    stripGlobals name = name := by
  rw [stripGlobals]
  cases name.length with
  | zero => rfl
  | succ length =>
      rw [stripGlobalsFrom, Text.cut_of_not_mem whole]
      simp

/-- Traced names stand for themselves. -/
theorem Reachable.resolved_of_traced (reached : Reachable t) {name : Text} {target : Traced}
    (traced : t.traced.get? name = some target) : target.resolved = name := by
  rw [reached.lawful.traced, get?_traced_default] at traced
  obtain ⟨reported, -, rfl⟩ := Option.map_eq_some_iff.1 traced
  rfl

/-- An alias is no module. -/
theorem Reachable.noModule_of_alias (reached : Reachable t) {name : Text} {target : Traced}
    (isAlias : t.aliases.get? name = some target) : t.modules.get? name = none := by
  obtain ⟨binding, -, held, module⟩ := reached.arises.oneKind name
  rw [isAlias] at held
  cases binding with
  | «alias» target' => exact module
  | literal _ | module _ | nothing => cases held

theorem bindingOfName_of_own {name : Text} {target : Traced} (named : name ≠ [])
    (known : t.own? name = some target) : t.bindingOfName name = .ok (.alias target) := by
  rw [bindingOfName, lookup_of_own named known]
  rfl

section Whole

variable {name : Text} (named : name ≠ []) (whole : CodePoint.ofChar '.' ∉ name)

include named whole

theorem bindingOfName_of_unknown (unknown : t.own? name = none) :
    t.bindingOfName name = .ok
      (((t.modules.get? name).map Binding.module).getD
        (if t.isAboveTraced name then .alias ⟨name, name⟩ else .nothing)) := by
  rw [bindingOfName, lookup_of_whole named whole, unknown, Outcome.ok_bind,
    stripGlobals_of_whole whole]
  cases t.modules.get? name <;> rfl

/-- A fresh name gives nothing. -/
theorem Fresh.bindingOfName (fresh : t.Fresh name) : t.bindingOfName name = .ok .nothing := by
  have unknown : t.own? name = none := fresh.own?_eq_none (by rw [Text.cut_of_not_mem whole])
  have noModule : t.modules.get? name = none := fresh.unbound.module
  rw [bindingOfName_of_unknown named whole unknown, noModule, fresh.not_isAboveTraced]
  rfl

/-- The copy of a name is assigned what the name gives. -/
theorem observe_copy {copy : Text} (fresh : t.Fresh copy) (unread : t.literals.get? name = none)
    (span nameSpan valueSpan : Span) :
    ∃ binding, t.bindingOfName name = .ok binding ∧
      t.observe (.definition span (.identifier nameSpan copy) (.identifier valueSpan name)) =
        .ok (t.assign copy binding) := by
  have noText : Expr.text? t.literals (.identifier valueSpan name) = .ok none :=
    congrArg Except.ok unread
  have copied : t.bindingOf copy (.identifier valueSpan name) = t.bindingOfName name := by
    rw [bindingOf, noText]
    show (if name = copy then _ else _) = _
    split
    · -- a copy onto itself
      subst copy
      rw [fresh.bindingOfName named whole]
    · rfl
  obtain ⟨binding, gives⟩ : ∃ binding, t.bindingOfName name = .ok binding := by
    cases known : t.own? name with
    | some target => exact ⟨_, bindingOfName_of_own named known⟩
    | none => exact ⟨_, bindingOfName_of_unknown named whole known⟩
  refine ⟨binding, gives, ?_⟩
  rw [observe, bind, copied, gives]
  rfl

/-- A global object that is not bound gives nothing. -/
theorem bindingOfName_of_global (reached : Reachable t) (object : name ∈ globalObjects)
    (unbound : t.Holds name .nothing) : t.bindingOfName name = .ok .nothing := by
  have known : ∀ global ∈ globalObjects,
      Tracer.default.traced.get? global = none ∧ Tracer.default.isAboveTraced global = false := by
    decide
  obtain ⟨untraced, aside⟩ := known name object
  have unknown : t.own? name = none := by
    rw [own?, unbound.target, reached.lawful.traced, untraced]
    rfl
  have noWay : t.isAboveTraced name = false := by
    rw [isAboveTraced, reached.lawful.traced]
    exact aside
  rw [bindingOfName_of_unknown named whole unknown, unbound.module, noWay]
  rfl

/-- A member that is not known by itself means what the binding of the name makes of it, but for
the members of global objects. -/
theorem lookup_of_bindingOfName (reached : Reachable t) (unread : t.literals.get? name = none)
    {member : Text} {binding : Binding} (more : member ≠ [])
    (unknown : t.own? (dot name member) = none) (gives : t.bindingOfName name = .ok binding)
    (other : ¬ (name ∈ globalObjects ∧ t.Holds name .nothing)) :
    t.lookup (dot name member) = binding.member t member := by
  cases known : t.own? name with
  | some target =>
      cases (bindingOfName_of_own named known).symm.trans gives
      cases isAlias : t.aliases.get? name with
      | some target' =>
          rw [own?, isAlias] at known
          cases known
          have noModule := reached.noModule_of_alias isAlias
          exact lookup_of_renames (move_of_alias whole more unknown noModule isAlias)
      | none =>
          rw [own?, isAlias, Option.none_or] at known
          rw [Binding.member, reached.resolved_of_traced known]
  | none =>
      cases (bindingOfName_of_unknown named whole known).symm.trans gives
      obtain ⟨noAlias, -⟩ := Option.or_eq_none_iff.1 known
      cases isModule : t.modules.get? name with
      | some module =>
          rw [lookup_eq_of_move t (dot_ne_nil name member), move_of_module whole more unknown isModule]
          rfl
      | none =>
          have unbound : t.Holds name .nothing := ⟨unread, noAlias, isModule⟩
          have ordinary : name ∉ globalObjects := fun object => other ⟨object, unbound⟩
          cases t.isAboveTraced name with
          | true => rfl
          | false => exact lookup_member whole ordinary more unknown unbound

/-- The binding of a name makes of a member what the member means, unless the copy hides it. -/
theorem member_eq_lookup_iff (reached : Reachable t) (unread : t.literals.get? name = none)
    {member : Text} {binding : Binding} (more : member ≠ [])
    (gives : t.bindingOfName name = .ok binding) :
    binding.member t member = t.lookup (dot name member) ↔ ¬ t.Hides name member := by
  cases known : t.own? (dot name member) with
  | some own =>
      rw [lookup_of_own (dot_ne_nil name member) known, hides_iff_of_own gives known, not_not]
  | none =>
      rw [hides_iff_of_unknown known]
      by_cases global : name ∈ globalObjects ∧ t.Holds name .nothing
      · obtain ⟨object, unbound⟩ := global
        cases (bindingOfName_of_global named whole reached object unbound).symm.trans gives
        have next : t.lookup (dot name member) = t.lookup member := by
          apply lookup_of_renames
          rw [Renames, move_of_unbound whole more known unbound.module unbound.target,
            if_pos object]
        rw [next, Binding.member]
        constructor
        · rintro same ⟨-, -, means⟩
          exact means same.symm
        · intro shown
          by_contra other
          exact shown ⟨object, unbound, fun same => other same.symm⟩
      · have meant := lookup_of_bindingOfName named whole reached unread more known gives global
        refine iff_of_true meant.symm ?_
        rintro ⟨object, unbound, -⟩
        exact global ⟨object, unbound⟩

/-- **A copy has the members of the original, unless it hides them.**  After any observations, for
every name that is bound to no text and every fresh name, the copy is observed without a failure.
Then a member of the copy means what the member of the original meant exactly if the copy does not
hide it, provided that following it does not lead back to the copy.  And whatever the original had,
and the copy does not hide, is found in the copy. -/
theorem copy_agrees_iff (reached : Reachable t) {copy : Text} (fresh : t.Fresh copy)
    (unread : t.literals.get? name = none) (span nameSpan valueSpan : Span) :
    ∃ t', t.observe (.definition span (.identifier nameSpan copy) (.identifier valueSpan name)) =
        .ok t' ∧
      ∀ member, member ≠ [] →
        (t.Apart copy name member →
          (t'.lookup (dot copy member) = t.lookup (dot name member) ↔ ¬ t.Hides name member)) ∧
        ∀ target, t.lookup (dot name member) = .ok (some target) → ¬ t.Hides name member →
          t'.lookup (dot copy member) = .ok (some target) := by
  obtain ⟨binding, gives, observed⟩ := observe_copy named whole fresh unread span nameSpan valueSpan
  refine ⟨_, observed, fun member more => ?_⟩
  have agrees := member_eq_lookup_iff named whole reached unread more gives
  constructor
  · intro apart
    rw [lookup_assign fresh more gives apart]
    exact agrees
  · intro target found shown
    have means : binding.member t member = .ok (some target) := (agrees.2 shown).trans found
    have apart : t.Apart copy name member := by
      intro target' gives'
      cases gives.symm.trans gives'
      exact fresh.avoids means
    rw [lookup_assign fresh more gives apart, means]

end Whole

/-- `const q = p`. -/
def pAsQ : Expr :=
  .definition .unknown (.identifier .unknown "q") (.identifier .unknown "p")

/-- After `const p = process` and `const q = p` the loader below `p` is the loader below `q`. -/
theorem loaderOfQ_agrees :
    Reachable withProcessAsP ∧ withProcessAsP.Fresh "q" ∧
    ∃ t', withProcessAsP.observe pAsQ = .ok t' ∧
      withProcessAsP.lookup "p.mainModule.require" =
        .ok (some ⟨"require", "process.mainModule.require"⟩) ∧
      t'.lookup "q.mainModule.require" = withProcessAsP.lookup "p.mainModule.require" := by
  have reached : Reachable withProcessAsP :=
    .observe processAsP .start (show Tracer.default.observe processAsP = .ok withProcessAsP from rfl)
  have fresh : withProcessAsP.Fresh "q" :=
    ⟨by decide, by decide, ⟨rfl, rfl, rfl⟩, by decide, by decide⟩
  have shown : ¬ withProcessAsP.Hides "p" "mainModule.require" := by
    rintro (⟨object, -, -, -⟩ | ⟨-, known, -⟩)
    · exact absurd object (by decide)
    · cases known
  have apart : withProcessAsP.Apart "q" "p" "mainModule.require" := by
    intro target gives
    cases gives
    exact avoids_of_not_mem (by decide)
  have named : Text.ofString "p" ≠ [] := by decide
  have whole : CodePoint.ofChar '.' ∉ Text.ofString "p" := by decide
  obtain ⟨t', observed, agrees⟩ := copy_agrees_iff named whole reached fresh rfl
    .unknown .unknown .unknown
  exact ⟨reached, fresh, t', observed, rfl,
    ((agrees "mainModule.require" (by decide)).1 apart).2 shown⟩

/-- `const g = globalThis`. -/
def globalAsG : Expr :=
  .definition .unknown (.identifier .unknown "g") (.identifier .unknown "globalThis")

/-- After `const g = globalThis` the loader `globalThis.require` is not found as `g.require`. -/
theorem globalAsG_hides :
    Tracer.default.Fresh "g" ∧
    ∃ t', Tracer.default.observe globalAsG = .ok t' ∧
      Tracer.default.lookup "globalThis.require" = .ok (some ⟨"require", "require"⟩) ∧
      t'.lookup "g.require" = .ok none :=
  ⟨⟨by decide, by decide, ⟨rfl, rfl, rfl⟩, by decide, by decide⟩, _, rfl, rfl, rfl⟩

-- `const { Buffer } = require("buffer"); const B = Buffer` hides a member with its own meaning
example :
    ∃ t₁ t₂, Tracer.default.observe (.destructuring .unknown .unknown "Buffer" "Buffer"
        (.call .unknown (named "require") [quoted "buffer"])) = .ok t₁ ∧
      t₁.observe (.definition .unknown (named "B") (named "Buffer")) = .ok t₂ ∧
      t₁.lookup "Buffer.from" = .ok (some ⟨"Buffer.from", "Buffer.from"⟩) ∧
      t₂.lookup "B.from" = .ok none :=
  ⟨_, _, rfl, rfl, rfl, rfl⟩

-- `const { window: w } = require("global"); const a = w`: the way of `a.a.require` comes back to
-- the copy, and goes on from there
example :
    ∃ t₁ t₂, Tracer.default.observe (.destructuring .unknown .unknown "window" "w"
        (.call .unknown (named "require") [quoted "global"])) = .ok t₁ ∧
      t₁.observe (.definition .unknown (named "a") (named "w")) = .ok t₂ ∧
      t₁.lookup "w.a.require" = .ok none ∧
      t₂.lookup "a.a.require" = .ok (some ⟨"require", "require"⟩) :=
  ⟨_, _, rfl, rfl, rfl, rfl⟩

end Tracer

end HiddenLoads
