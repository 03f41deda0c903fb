/-
# HiddenLoads.Proofs.Destructuring -- taking a member apart, or asking for it

`const { k: x } = v` and `const x = v.k` are two ways to write one thing, and a tracer that binds
`x` in one way only can be evaded by the other.  Both follow the name `v.k`
(`observe_destructuring`, `observe_memberAccess`), and where this finds a traced name they agree.

Where it finds none, the member access has two more answers: the name may stand for a module, or be
on the way to a traced name, as `process.mainModule` is to `process.mainModule.require`.  The pattern
has neither.  `Tracer.PassesOver` says when this makes the difference.
-/
import HiddenLoads.Proofs.Holdings
import HiddenLoads.Proofs.Reported

namespace HiddenLoads

set_option autoImplicit false

namespace Expr

/-- A name, or a name with names behind dots. -/
inductive Chain : Expr → List Text → Prop
  | name (span : Span) (name : Text) : Chain (.identifier span name) [name]
  | member {object : Expr} {names : List Text} (span nameSpan : Span) (name : Text)
      (inner : Chain object names) :
      Chain (.member span object (.identifier nameSpan name) false) (names ++ [name])

/-- `{ key: name } = value`. -/
def destructuring (span patternSpan : Span) (key name : Text) (value : Expr) : Expr :=
  .definition span (.pattern patternSpan [⟨key, name⟩]) value

/-- `name = value.key`. -/
def memberAccess (span nameSpan memberSpan keySpan : Span) (key name : Text) (value : Expr) : Expr :=
  .definition span (.identifier nameSpan name)
    (.member memberSpan value (.identifier keySpan key) false)

theorem Chain.ne_nil {e : Expr} {names : List Text} (chain : e.Chain names) : names ≠ [] := by
  cases chain with
  | name => exact List.cons_ne_nil _ _
  | member => exact List.append_ne_nil_of_right_ne_nil _ (List.cons_ne_nil _ _)

theorem Chain.segments {e : Expr} {names : List Text} (chain : e.Chain names)
    (known : Bindings Text) : Expr.segments known e = .ok names := by
  induction chain with
  | name => rfl
  | member span nameSpan name inner ih =>
      rw [Expr.segments, ih]
      rfl

theorem Chain.name? {e : Expr} {names : List Text} (chain : e.Chain names)
    (known : Bindings Text) : Expr.name? known e = .ok (some (Text.joinWith '.' names)) := by
  have segments := chain.segments known
  cases chain with
  | name => rfl
  | member span nameSpan name inner =>
      rw [Expr.name?, segments, Outcome.ok_bind, dotted?, Text.joinWith_concat _ inner.ne_nil]
      simp

end Expr

namespace Tracer

/-! ## The two ways -/

def memberName (names : List Text) (key : Text) : Text := dot (Text.joinWith '.' names) key

variable {t : Tracer} {value : Expr} {names : List Text}

/-- The pattern binds the name to what following the name of the member finds. -/
theorem observe_destructuring (chain : value.Chain names) (span patternSpan : Span)
    (key name : Text) :
    t.observe (.destructuring span patternSpan key name value) =
      t.lookup (memberName names key) >>= fun target? => .ok (t.assign name (.ofTarget? target?)) := by
  have noLoad : t.requiredModule? value = .ok none := by cases chain <;> rfl
  rw [Expr.destructuring, observe, bind, resolveEntries, noLoad, Outcome.ok_bind]
  simp only [chain.name?, Outcome.ok_bind, List.mapM_cons, List.mapM_nil]
  rw [memberName]
  cases t.lookup (dot (Text.joinWith '.' names) key) with
  | error failure => rfl
  | ok target? => cases target? <;> rfl

/-- The member access binds the name to what the name of the member gives. -/
theorem observe_memberAccess (chain : value.Chain names) {name : Text}
    (whole : CodePoint.ofChar '.' ∉ name) (span nameSpan memberSpan keySpan : Span) (key : Text) :
    t.observe (.memberAccess span nameSpan memberSpan keySpan key name value) =
      t.bindingOfName (memberName names key) >>= fun binding => .ok (t.assign name binding) := by
  have dotted := (Expr.Chain.member memberSpan keySpan key chain).name? t.literals
  rw [Text.joinWith_concat _ chain.ne_nil] at dotted
  have apart : memberName names key ≠ name := by
    rintro rfl
    simp [memberName, dot] at whole
  have noText : Expr.text? t.literals (.member memberSpan value (.identifier keySpan key) false) =
      .ok none := rfl
  have noLoad : t.requiredModule? (.member memberSpan value (.identifier keySpan key) false) =
      .ok none := rfl
  rw [Expr.memberAccess, observe, bind, bindingOf, noText, Outcome.ok_bind, noLoad, Outcome.ok_bind,
    dotted, Outcome.ok_bind]
  simp only [show Text.joinWith '.' names ++ CodePoint.ofChar '.' :: key = memberName names key
    from rfl, if_neg apart]

/-! ## Where they part -/

/-- The full names below which there are traced names. -/
def waypoints : List Text := ["require", "module", "process", "process.mainModule", "Buffer"]

/-- Following the name finds no traced name, but it stands for a module, or it is on the way to a
traced name, global objects in front left out. -/
structure PassesOver (t : Tracer) (dotted : Text) : Prop where
  untraced : t.lookup dotted = .ok none
  leads : (t.modules.get? dotted).isSome = true ∨ stripGlobals dotted ∈ waypoints

/-- In a fresh pass the ways to traced names are known. -/
theorem isAboveTraced_default (name : Text) :
    default.isAboveTraced name = true ↔ name ∈ waypoints := by
  constructor
  · intro above
    have listed : ∀ entry ∈ default.traced.entries, ∀ start ∈ entry.1.inits,
        start.getLast? = some (CodePoint.ofChar '.') → start.dropLast ∈ waypoints := by decide
    rw [isAboveTraced, List.any_eq_true] at above
    obtain ⟨entry, inside, below⟩ := above
    have start := (List.mem_inits _ _).2 (List.isPrefixOf_iff_prefix.1 below)
    have way := listed entry inside _ start (by simp)
    rwa [List.dropLast_concat] at way
  · intro inside
    have all : ∀ name ∈ waypoints, default.isAboveTraced name = true := by decide
    exact all name inside

theorem isAboveTraced_iff (reached : Reachable t) (name : Text) :
    t.isAboveTraced name = true ↔ name ∈ waypoints := by
  rw [← isAboveTraced_default, isAboveTraced, isAboveTraced, reached.lawful.traced]

/-- Where following the name finds a traced name, or fails, it gives just that. -/
theorem bindingOfName_of_traced {dotted : Text} (traced : t.lookup dotted ≠ .ok none) :
    t.bindingOfName dotted = t.lookup dotted >>= fun target? => .ok (.ofTarget? target?) := by
  rw [bindingOfName]
  cases looked : t.lookup dotted with
  | error failure => rfl
  | ok target? =>
      cases target? with
      | some target => rfl
      | none => exact absurd looked traced

/-- A name that is not traced gives nothing exactly if it is no module and on no way. -/
theorem exists_bindingOfName (reached : Reachable t) {dotted : Text}
    (untraced : t.lookup dotted = .ok none) :
    ∃ binding, t.bindingOfName dotted = .ok binding ∧ (t.PassesOver dotted ↔ binding ≠ .nothing) := by
  have passes : t.PassesOver dotted ↔
      (t.modules.get? dotted).isSome = true ∨ t.isAboveTraced (stripGlobals dotted) = true := by
    rw [isAboveTraced_iff reached]
    exact ⟨fun passes => passes.leads, fun leads => ⟨untraced, leads⟩⟩
  rw [bindingOfName, untraced, Outcome.ok_bind, passes]
  cases t.modules.get? dotted with
  | some module => exact ⟨.module module, rfl, by simp⟩
  | none =>
      refine ⟨_, rfl, ?_⟩
      cases t.isAboveTraced (stripGlobals dotted) <;> simp

/-- Different bindings of a name make different tracers. -/
theorem assign_eq_assign_iff (t : Tracer) (name : Text) (binding binding' : Binding) :
    t.assign name binding = t.assign name binding' ↔ binding = binding' := by
  refine ⟨fun same => ?_, fun same => same ▸ rfl⟩
  have holds := holds_assign t name binding
  rw [same] at holds
  exact holds.unique (holds_assign t name binding')

/-- **A pattern with one key agrees with the member access, unless it passes the member over.**
After any observations, and for every value that is a name or a chain of names behind dots, the two
ways to take a member out of it lead to the same state, or fail alike, exactly if the member is not
passed over.  If it is, then the name has no binding after the pattern, and one after the member
access. -/
theorem destructuring_agrees_iff (reached : Reachable t) (chain : value.Chain names) {name : Text}
    (whole : CodePoint.ofChar '.' ∉ name) (key : Text)
    (span patternSpan span' nameSpan memberSpan keySpan : Span) :
    (t.observe (.destructuring span patternSpan key name value) =
        t.observe (.memberAccess span' nameSpan memberSpan keySpan key name value) ↔
      ¬ t.PassesOver (memberName names key)) ∧
    (t.PassesOver (memberName names key) → ∃ t₁ t₂,
      t.observe (.destructuring span patternSpan key name value) = .ok t₁ ∧
      t.observe (.memberAccess span' nameSpan memberSpan keySpan key name value) = .ok t₂ ∧
      t₁.Holds name .nothing ∧ ¬ t₂.Holds name .nothing) := by
  rw [observe_destructuring chain, observe_memberAccess chain whole]
  by_cases untraced : t.lookup (memberName names key) = .ok none
  · obtain ⟨binding, gives, passes⟩ := exists_bindingOfName reached untraced
    rw [untraced, Outcome.ok_bind, gives, Outcome.ok_bind, passes]
    refine ⟨?_, fun other => ⟨_, _, rfl, rfl, holds_assign t name .nothing, fun holds => ?_⟩⟩
    · rw [Except.ok.injEq, assign_eq_assign_iff, Binding.ofTarget?, not_not, eq_comm]
    · exact other ((holds_assign t name binding).unique holds)
  · have apart : ¬ t.PassesOver (memberName names key) := fun passes => untraced passes.untraced
    rw [bindingOfName_of_traced untraced]
    refine ⟨iff_of_true ?_ apart, fun passes => absurd passes apart⟩
    cases t.lookup (memberName names key) <;> rfl

/-- `const { require: load } = module` binds `load` as `const load = module.require` does. -/
theorem loaderOfModule_agrees :
    Reachable default ∧ (named "module").Chain ["module"] ∧
    ∃ t', default.observe (.destructuring .unknown .unknown "require" "load" (named "module")) =
        .ok t' ∧
      default.observe (.memberAccess .unknown .unknown .unknown .unknown "require" "load"
        (named "module")) = .ok t' ∧
      t'.Holds "load" (.alias ⟨"require", "module.require"⟩) := by
  have chain : (named "module").Chain ["module"] := .name _ _
  have whole : CodePoint.ofChar '.' ∉ Text.ofString "load" := by decide
  have traced : ¬ default.PassesOver (memberName ["module"] "require") := by
    rintro ⟨untraced, -⟩
    cases untraced
  have same := (destructuring_agrees_iff .start chain whole "require" .unknown .unknown .unknown
    .unknown .unknown .unknown).1.2 traced
  obtain ⟨t', observed⟩ : ∃ t',
      default.observe (.destructuring .unknown .unknown "require" "load" (named "module")) = .ok t' :=
    ⟨_, rfl⟩
  refine ⟨.start, chain, t', observed, same.symm.trans observed, ?_⟩
  cases observed
  exact ⟨rfl, rfl, rfl⟩

/-- `const { mainModule: m } = process` leaves `m` without a binding, so that `m.require` means
nothing; after `const m = process.mainModule` it is a loader. -/
theorem mainModule_passed_over :
    (named "process").Chain ["process"] ∧
    ∃ t₁ t₂, default.observe (.destructuring .unknown .unknown "mainModule" "m" (named "process")) =
        .ok t₁ ∧
      default.observe (.memberAccess .unknown .unknown .unknown .unknown "mainModule" "m"
        (named "process")) = .ok t₂ ∧
      t₁.aliases.get? "m" = none ∧
      t₂.aliases.get? "m" = some ⟨"process.mainModule", "process.mainModule"⟩ ∧
      t₁.lookup "m.require" = .ok none ∧
      t₂.lookup "m.require" = .ok (some ⟨"require", "process.mainModule.require"⟩) :=
  ⟨.name _ _, _, _, rfl, rfl, rfl, rfl, rfl, rfl⟩

end Tracer

end HiddenLoads
