/-
# HiddenLoads.Proofs.Holdings -- one name, one kind of binding

A tracer keeps three maps, and a name could be in several of them: lookups would then follow an
alias of the name while loads read its literal.  `Tracer.Holds` says that a name has one binding and
no other, in all three maps at once, and `Tracer.OneKind` that every name has one.

* what an assignment gives to a name is what the name then holds (`holds_assign`);
* of the entries of a pattern with one name, the last one counts (`holds_assignEntries`);
* every name that is not touched holds what it held (`Touches.holds_iff`).

So an observation leaves one binding to every name (`Effect.oneKind`), whatever it observes, and so
does any number of them.
-/
import HiddenLoads.Proofs.StraightLine
import Mathlib.Data.Set.Disjoint
import Mathlib.Order.CompletePartialOrder

namespace HiddenLoads

set_option autoImplicit false

def Bindings.keys {α : Type} (b : Bindings α) : Set Text := { name | b.binds name = true }

theorem Bindings.mem_keys {α : Type} {b : Bindings α} {name : Text} :
    name ∈ b.keys ↔ (b.get? name).isSome = true := Iff.rfl

namespace Tracer

/-! ## What a name holds -/

def Binding.target? : Binding → Option Traced
  | .alias target => some target
  | _ => none

def Binding.module? : Binding → Option Text
  | .module name => some name
  | _ => none

/-- The name has this binding and no other. -/
structure Holds (t : Tracer) (name : Text) (binding : Binding) : Prop where
  literal : t.literals.get? name = binding.text?
  target : t.aliases.get? name = binding.target?
  module : t.modules.get? name = binding.module?

theorem Holds.unique {t : Tracer} {name : Text} {binding binding' : Binding}
    (one : t.Holds name binding) (two : t.Holds name binding') : binding = binding' := by
  have text := one.literal.symm.trans two.literal
  have target := one.target.symm.trans two.target
  have module := one.module.symm.trans two.module
  cases binding <;> cases binding' <;>
    simp_all [Binding.text?, Binding.target?, Binding.module?]

theorem holds_forget (t : Tracer) (name : Text) : (t.forget name).Holds name .nothing := by
  constructor <;> rw [forget, Bindings.get?_forget, if_pos rfl] <;> rfl

/-- A name holds what is assigned to it. -/
theorem holds_assign (t : Tracer) (name : Text) (binding : Binding) :
    (t.assign name binding).Holds name binding := by
  obtain ⟨literal, target, module⟩ := holds_forget t name
  cases binding with
  | literal text => exact ⟨by rw [assign, Bindings.get?_bind, if_pos rfl]; rfl, target, module⟩
  | module module' => exact ⟨literal, target, by rw [assign, Bindings.get?_bind, if_pos rfl]; rfl⟩
  | «alias» target' => exact ⟨literal, by rw [assign, Bindings.get?_bind, if_pos rfl]; rfl, module⟩
  | nothing => exact ⟨literal, target, module⟩

/-- A name that is not touched holds what it held. -/
theorem Touches.holds_iff {names : List Text} {t t' : Tracer} (touches : Touches names t t')
    {name : Text} (apart : name ∉ names) (binding : Binding) :
    t'.Holds name binding ↔ t.Holds name binding := by
  constructor
  · rintro ⟨literal, target, module⟩
    exact ⟨(touches.literals name apart).symm.trans literal,
      (touches.aliases name apart).symm.trans target, (touches.modules name apart).symm.trans module⟩
  · rintro ⟨literal, target, module⟩
    exact ⟨(touches.literals name apart).trans literal, (touches.aliases name apart).trans target,
      (touches.modules name apart).trans module⟩

/-! ## Patterns -/

/-- What the meaning of a key gives to the name of its entry. -/
def Binding.ofTarget? : Option Traced → Binding
  | some target => .alias target
  | none => .nothing

theorem assignEntries_concat (t : Tracer) (resolved : List (Text × Option Traced)) (name : Text)
    (target? : Option Traced) :
    t.assignEntries (resolved ++ [(name, target?)]) =
      (t.assignEntries resolved).assign name (.ofTarget? target?) := by
  rw [assignEntries, List.foldl_append]
  cases target? <;> rfl

/-- Of the entries with one name, the last one counts. -/
theorem holds_assignEntries (t : Tracer) {resolved : List (Text × Option Traced)} {name : Text}
    {target? : Option Traced} (last : resolved.reverse.lookup name = some target?) :
    (t.assignEntries resolved).Holds name (.ofTarget? target?) := by
  induction resolved using List.reverseRecOn with
  | nil => cases last
  | append_singleton resolved entry ih =>
      obtain ⟨other, other?⟩ := entry
      rw [assignEntries_concat]
      rw [List.reverse_append, List.reverse_singleton, List.singleton_append, List.lookup_cons] at last
      by_cases same : name = other
      · subst same
        simp only [beq_self_eq_true, Option.some.injEq] at last
        rw [← last]
        exact holds_assign _ name _
      · have apart : (name == other) = false := by simp [same]
        simp only [apart] at last
        exact ((assign_touches _ other _).holds_iff (by simp [same]) _).2 (ih last)

/-- Every name of a pattern has a last entry. -/
theorem exists_last {resolved : List (Text × Option Traced)} {name : Text}
    (inside : name ∈ resolved.map (·.1)) : ∃ target?, resolved.reverse.lookup name = some target? := by
  rw [← Option.isSome_iff_exists, List.lookup_isSome_iff]
  obtain ⟨entry, member, same⟩ := List.mem_map.1 inside
  exact ⟨entry, List.mem_reverse.2 member, by simp [same]⟩

/-! ## One kind of binding -/

def OneKind (t : Tracer) : Prop := ∀ name, ∃ binding, t.Holds name binding

theorem oneKind_empty : OneKind empty := fun _ => ⟨.nothing, rfl, rfl, rfl⟩

theorem oneKind_default : OneKind default := fun _ => ⟨.nothing, rfl, rfl, rfl⟩

/-- If every touched name has one binding, so has every name. -/
theorem OneKind.of_touches {names : List Text} {t t' : Tracer} (oneKind : OneKind t)
    (touches : Touches names t t') (held : ∀ name ∈ names, ∃ binding, t'.Holds name binding) :
    OneKind t' := by
  intro name
  by_cases inside : name ∈ names
  · exact held name inside
  · obtain ⟨binding, holds⟩ := oneKind name
    exact ⟨binding, (touches.holds_iff inside binding).2 holds⟩

theorem OneKind.assign {t : Tracer} (oneKind : OneKind t) (name : Text) (binding : Binding) :
    OneKind (t.assign name binding) := by
  apply oneKind.of_touches (assign_touches t name binding)
  intro other inside
  rw [List.mem_singleton.1 inside]
  exact ⟨binding, holds_assign t name binding⟩

theorem OneKind.assignEntries {t : Tracer} (oneKind : OneKind t)
    (resolved : List (Text × Option Traced)) : OneKind (t.assignEntries resolved) := by
  apply oneKind.of_touches (assignEntries_touches t resolved)
  intro name inside
  obtain ⟨target?, last⟩ := exists_last inside
  exact ⟨_, holds_assignEntries t last⟩

/-- A name that holds a literal is in no other map, so its literal can be changed alone. -/
theorem OneKind.bindLiteral {t : Tracer} (oneKind : OneKind t) {name current : Text}
    (held : t.literals.get? name = some current) (text : Text) :
    OneKind { t with literals := t.literals.bind name text } := by
  intro other
  obtain ⟨binding, literal, target, module⟩ := oneKind other
  by_cases same : other = name
  · subst same
    rw [held] at literal
    cases binding with
    | literal current' =>
        refine ⟨.literal text, ?_, target, module⟩
        rw [Bindings.get?_bind, if_pos rfl]
        rfl
    | _ => cases literal
  · refine ⟨binding, ?_, target, module⟩
    rw [Bindings.get?_bind, if_neg same]
    exact literal

/-- **One step.**  An observation leaves one binding to every name. -/
theorem Effect.oneKind {t t' : Tracer} (effect : t.Effect t') (oneKind : OneKind t) : OneKind t' := by
  cases effect with
  | nothing => exact oneKind
  | forget name => exact oneKind.assign name .nothing
  | append held _ => exact oneKind.bindLiteral held _
  | assign _ => exact oneKind.assign _ _
  | destructure _ => exact oneKind.assignEntries _

/-- The states that tracing names and observing expressions lead to, from a tracer without any
names or from that of a fresh pass. -/
inductive Arises : Tracer → Prop
  | empty : Arises .empty
  | default : Arises .default
  | trace {t : Tracer} (dotted name : Text) (before : Arises t) : Arises (t.trace dotted name)
  | observe {t t' : Tracer} (e : Expr) (before : Arises t) (observed : t.observe e = .ok t') :
      Arises t'

theorem Arises.oneKind {t : Tracer} (arises : Arises t) : OneKind t := by
  induction arises with
  | empty => exact oneKind_empty
  | default => exact oneKind_default
  | trace dotted name _ ih =>
      -- tracing a name changes none of the three maps
      intro other
      obtain ⟨binding, literal, target, module⟩ := ih other
      exact ⟨binding, literal, target, module⟩
  | observe e _ observed ih => exact (effect_of_observe observed).oneKind ih

theorem Arises.observeAll {t t' : Tracer} {es : List Expr} (arises : Arises t)
    (done : t.observeAll es = .ok t') : Arises t' := by
  induction es generalizing t with
  | nil =>
      cases done
      exact arises
  | cons e es ih =>
      rw [Tracer.observeAll, List.foldlM_cons] at done
      obtain ⟨t₁, observed, done⟩ := Outcome.bind_eq_ok_iff.1 done
      exact ih (.observe e arises observed) done

theorem Reachable.arises {t : Tracer} (reached : Reachable t) : Arises t := by
  induction reached with
  | start => exact .default
  | observe e _ observed ih => exact .observe e ih observed

theorem OneKind.disjoint {t : Tracer} (oneKind : OneKind t) :
    Disjoint t.literals.keys t.aliases.keys ∧ Disjoint t.literals.keys t.modules.keys ∧
      Disjoint t.aliases.keys t.modules.keys := by
  have single : ∀ name,
      (name ∈ t.literals.keys → name ∉ t.aliases.keys ∧ name ∉ t.modules.keys) ∧
        (name ∈ t.aliases.keys → name ∉ t.modules.keys) := by
    intro name
    obtain ⟨binding, literal, target, module⟩ := oneKind name
    simp only [Bindings.mem_keys, literal, target, module]
    cases binding <;> simp [Binding.text?, Binding.target?, Binding.module?]
  refine ⟨Set.disjoint_left.2 ?_, Set.disjoint_left.2 ?_, Set.disjoint_left.2 ?_⟩
  · intro name inside
    exact ((single name).1 inside).1
  · intro name inside
    exact ((single name).1 inside).2
  · intro name inside
    exact (single name).2 inside

/-- **One name, one kind of binding.**  After any names have been traced and any expressions been
observed, no name is in two of the three maps.  A single observation changes what no other names
are bound to than those in the target of its declaration or assignment, and never what is traced. -/
theorem kinds_disjoint_and_observe_touches {t : Tracer} (arises : Arises t) :
    (Disjoint t.literals.keys t.aliases.keys ∧ Disjoint t.literals.keys t.modules.keys ∧
      Disjoint t.aliases.keys t.modules.keys) ∧
    ∀ e t', t.observe e = .ok t' → Touches e.bound t t' :=
  ⟨arises.oneKind.disjoint, fun _ _ observed => observe_touches observed⟩

/-- `const s = "fs"; let p = s; const r = load; p = r("path"); p += s; p = r("path")`. -/
def threeKinds : List Expr := [
    .definition .unknown (named "s") (quoted "fs"),
    .definition .unknown (named "p") (named "s"),
    .definition .unknown (named "r") (named "load"),
    .assignment .unknown "=" (named "p") (.call .unknown (named "r") [quoted "path"]),
    .assignment .unknown "+=" (named "p") (named "s"),
    .assignment .unknown "=" (named "p") (.call .unknown (named "r") [quoted "path"])]

/-- `({ join: s } = p)`. -/
def joinAsS : Expr := .assignment .unknown "=" (.pattern .unknown [⟨"join", "s"⟩]) (named "p")

/-- While `load` is traced as a loader, the names hold a literal, a module and an alias in the end,
each one of these alone, and a pattern with the name `s` then touches `s` alone. -/
theorem threeKinds_disjoint :
    ∃ t t', (default.trace "load" "require").observeAll threeKinds = .ok t ∧
      t.literals.get? "s" = some "fs" ∧ t.modules.get? "p" = some "path" ∧
      t.aliases.get? "r" = some ⟨"require", "load"⟩ ∧
      Disjoint t.literals.keys t.modules.keys ∧ t.observe joinAsS = .ok t' ∧ Touches ["s"] t t' := by
  obtain ⟨t, done⟩ : ∃ t, (default.trace "load" "require").observeAll threeKinds = .ok t := ⟨_, rfl⟩
  have arises : Arises t := (Arises.trace "load" "require" .default).observeAll done
  cases done
  obtain ⟨disjoint, touches⟩ := kinds_disjoint_and_observe_touches arises
  exact ⟨_, _, rfl, rfl, rfl, rfl, disjoint.2.1, rfl, touches joinAsS _ rfl⟩

end Tracer

end HiddenLoads
