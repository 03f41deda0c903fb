/-
# HiddenLoads.Proofs.Reported -- the reported name is a function of the resolved name

What a name stands for is a pair: the full dotted name, and the name under which it is reported.
Pairs are made in five ways: a traced entry, an alias of an alias, a member of a module, the way to
a traced name below, and a key of a pattern; and each way goes through the others.  All of them keep
one law, `Traced.Canonical`: the table of traced names says what the full name is reported under,
and a name that is not in the table is reported as itself.

The law is kept by a single observation (`Tracer.Effect.lawful`), and so by any number of them.
A load is therefore recognised by the full name of its callee alone.
-/
import HiddenLoads.Probe.Require
import HiddenLoads.Proofs.Observe

namespace HiddenLoads

set_option autoImplicit false

namespace Tracer

def reportedAs (resolved : Text) : Text := (defaults.lookup resolved).getD resolved

def loaders : List Text := ["require", "module.require", "process.mainModule.require"]

end Tracer

/-- The reported name is the one for the full name. -/
def Traced.Canonical (target : Traced) : Prop := target.name = Tracer.reportedAs target.resolved

namespace Tracer

/-! ## The table of traced names -/

theorem mem_defaults_of_lookup {dotted name : Text} (listed : defaults.lookup dotted = some name) :
    (dotted, name) ∈ defaults := by
  obtain ⟨before, after, table, -⟩ := List.lookup_eq_some_iff.1 listed
  simp [table]

/-- The traced names of a fresh pass are those of the table. -/
theorem get?_traced_default (dotted : Text) :
    default.traced.get? dotted = (defaults.lookup dotted).map fun name => ⟨name, dotted⟩ := by
  have tabled : ∀ entry ∈ defaults, default.traced.get? entry.1 = some ⟨entry.2, entry.1⟩ := by
    decide
  have nothingElse : ∀ entry ∈ default.traced.entries,
      defaults.lookup entry.1 = some entry.2.name := by decide
  cases listed : defaults.lookup dotted with
  | some name => exact tabled _ (mem_defaults_of_lookup listed)
  | none =>
      cases found : default.traced.get? dotted with
      | none => rfl
      | some target =>
          have same := nothingElse _ (Bindings.mem_of_get? found)
          rw [listed] at same
          cases same

theorem canonical_of_traced {dotted : Text} {target : Traced}
    (found : default.traced.get? dotted = some target) : target.Canonical := by
  rw [get?_traced_default] at found
  obtain ⟨name, listed, rfl⟩ := Option.map_eq_some_iff.1 found
  show name = reportedAs dotted
  rw [reportedAs, listed, Option.getD_some]

/-- A name that is not traced is reported as itself. -/
theorem canonical_of_untraced {dotted : Text} (absent : default.traced.get? dotted = none) :
    Traced.Canonical ⟨dotted, dotted⟩ := by
  rw [get?_traced_default, Option.map_eq_none_iff] at absent
  show dotted = reportedAs dotted
  rw [reportedAs, absent, Option.getD_none]

/-- A name with traced names below it is reported as itself, although it may be traced as well. -/
theorem canonical_of_isAboveTraced {dotted : Text} (above : default.isAboveTraced dotted = true) :
    Traced.Canonical ⟨dotted, dotted⟩ := by
  have ownName : ∀ entry ∈ defaults, default.isAboveTraced entry.1 = true → entry.2 = entry.1 := by
    decide
  show dotted = reportedAs dotted
  rw [reportedAs]
  cases listed : defaults.lookup dotted with
  | none => rfl
  | some name => exact (ownName _ (mem_defaults_of_lookup listed) above).symm

/-- What is reported as a loader has the full name of one. -/
theorem eq_loader_iff {target : Traced} (canonical : target.Canonical) :
    target.name = loader ↔ target.resolved ∈ loaders := by
  have tabled : ∀ entry ∈ defaults, entry.2 = loader ↔ entry.1 ∈ loaders := by decide
  have listedLoaders : ∀ name ∈ loaders, (defaults.lookup name).isSome = true := by decide
  rw [canonical, reportedAs]
  cases listed : defaults.lookup target.resolved with
  | some name => exact tabled _ (mem_defaults_of_lookup listed)
  | none =>
      rw [Option.getD_none]
      have absent : target.resolved ∉ loaders := by
        intro isLoader
        have some := listedLoaders _ isLoader
        rw [listed] at some
        cases some
      refine iff_of_false (fun same => absent ?_) absent
      rw [same]
      decide

/-! ## What a name leads to -/

/-- The aliases of a tracer keep the law, and it traces what a fresh one traces. -/
structure Lawful (t : Tracer) : Prop where
  traced : t.traced = default.traced
  aliases : ∀ name target, t.aliases.get? name = some target → target.Canonical

namespace Lawful

variable {t : Tracer}

theorem fromModule (lawful : Lawful t) (module member : Text) :
    (t.fromModule module member).Canonical := by
  rw [Tracer.fromModule, lawful.traced]
  cases found : default.traced.get? (dot module member) with
  | some target => exact canonical_of_traced found
  | none => exact canonical_of_untraced found

/-- A step that finds something finds an alias, a traced name or a member of a module. -/
theorem move (lawful : Lawful t) {name : Text} {target : Traced}
    (found : t.move name = .found target) : target.Canonical := by
  rw [Tracer.move] at found
  split at found
  case h_1 target' isAlias =>
      cases found
      exact lawful.aliases _ _ isAlias
  case h_2 =>
      split at found
      case h_1 target' traced =>
          cases found
          rw [lawful.traced] at traced
          exact canonical_of_traced traced
      case h_2 =>
          simp only at found
          split at found
          · cases found
          · split at found
            · cases found
              exact lawful.fromModule _ _
            · split at found
              · cases found
              · split at found <;> cases found

theorem follow (lawful : Lawful t) {limit fuel : Nat} {seen : List Text} {name : Text}
    {target : Traced} (found : t.follow limit fuel seen name = .ok (some target)) :
    target.Canonical := by
  induction fuel generalizing seen name with
  | zero => cases found
  | succ fuel ih =>
      rw [follow_succ] at found
      split at found
      · cases found
      · split at found
        · cases found
        · cases moved : t.move name with
          | found target' =>
              rw [moved] at found
              cases found
              exact lawful.move moved
          | untraced =>
              rw [moved] at found
              cases found
          | rename next =>
              rw [moved] at found
              exact ih found

theorem lookup (lawful : Lawful t) {name : Text} {target : Traced}
    (found : t.lookup name = .ok (some target)) : target.Canonical := by
  rw [Tracer.lookup] at found
  split at found
  · cases found
  · exact lawful.follow found

/-! ## What an observation leaves behind -/

theorem forget (lawful : Lawful t) (name : Text) : Lawful (t.forget name) := by
  refine ⟨lawful.traced, fun other target found => lawful.aliases other target ?_⟩
  rw [Tracer.forget, Bindings.get?_forget] at found
  split at found
  · cases found
  · exact found

theorem assign (lawful : Lawful t) (name : Text) {binding : Binding}
    (canonical : ∀ target, binding = .alias target → target.Canonical) :
    Lawful (t.assign name binding) := by
  have cleared := lawful.forget name
  cases binding with
  | literal text => exact ⟨cleared.traced, cleared.aliases⟩
  | module module => exact ⟨cleared.traced, cleared.aliases⟩
  | nothing => exact cleared
  | «alias» target =>
      refine ⟨cleared.traced, fun other target' found => ?_⟩
      simp only [Tracer.assign, Bindings.get?_bind] at found
      split at found
      · cases found
        exact canonical target rfl
      · exact cleared.aliases other target' found

theorem assignEntries (lawful : Lawful t) {resolved : List (Text × Option Traced)}
    (canonical : ∀ name target, (name, some target) ∈ resolved → target.Canonical) :
    Lawful (t.assignEntries resolved) := by
  induction resolved generalizing t with
  | nil => exact lawful
  | cons entry resolved ih =>
      obtain ⟨name, target?⟩ := entry
      refine ih (lawful.assign name ?_) fun name' target' inside =>
        canonical name' target' (List.mem_cons_of_mem _ inside)
      intro target isAlias
      cases target? with
      | none => cases isAlias
      | some target' =>
          cases isAlias
          exact canonical name target List.mem_cons_self

/-- The alias that a dotted name gives keeps the law. -/
theorem bindingOfName (lawful : Lawful t) {dotted : Text} {target : Traced}
    (gives : t.bindingOfName dotted = .ok (.alias target)) : target.Canonical := by
  obtain ⟨found?, looked, gives⟩ := Outcome.bind_eq_ok_iff.1 gives
  cases found? with
  | some found =>
      cases gives
      exact lawful.lookup looked
  | none =>
      simp only at gives
      split at gives
      · cases gives
      · split at gives
        case isTrue above =>
            cases gives
            have same : t.isAboveTraced = default.isAboveTraced := by
              funext name
              rw [isAboveTraced, isAboveTraced, lawful.traced]
            rw [same] at above
            exact canonical_of_isAboveTraced above
        case isFalse => cases gives

theorem bindingOf (lawful : Lawful t) {name : Text} {value : Expr} {target : Traced}
    (gives : t.bindingOf name value = .ok (.alias target)) : target.Canonical := by
  obtain ⟨text?, _, gives⟩ := Outcome.bind_eq_ok_iff.1 gives
  cases text? with
  | some text => cases gives
  | none =>
      obtain ⟨module?, _, gives⟩ := Outcome.bind_eq_ok_iff.1 gives
      cases module? with
      | some module => cases gives
      | none =>
          obtain ⟨dotted?, _, gives⟩ := Outcome.bind_eq_ok_iff.1 gives
          cases dotted? with
          | none => cases gives
          | some dotted =>
              simp only at gives
              split at gives
              · cases gives
              · exact lawful.bindingOfName gives

/-- So does what a key of a pattern means. -/
theorem resolveEntries (lawful : Lawful t) {value : Expr} {entries : List Entry}
    {resolved : List (Text × Option Traced)} (means : t.resolveEntries value entries = .ok resolved)
    {name : Text} {target : Traced} (inside : (name, some target) ∈ resolved) :
    target.Canonical := by
  obtain ⟨module?, _, means⟩ := Outcome.bind_eq_ok_iff.1 means
  cases module? with
  | some module =>
      cases means
      obtain ⟨entry, _, same⟩ := List.mem_map.1 inside
      cases same
      exact lawful.fromModule module entry.key
  | none =>
      obtain ⟨dotted?, _, means⟩ := Outcome.bind_eq_ok_iff.1 means
      cases dotted? with
      | none =>
          cases means
          obtain ⟨entry, _, same⟩ := List.mem_map.1 inside
          cases same
      | some dotted =>
          have each := Outcome.mapM_eq_ok_iff.1 means
          obtain ⟨entry, _, looked⟩ := (Outcome.mem_iff_of_forall₂ each _).1 inside
          obtain ⟨found?, looked, same⟩ := Outcome.bind_eq_ok_iff.1 looked
          cases same
          exact lawful.lookup looked

end Lawful

/-- **One step.**  An observation keeps the law. -/
theorem Effect.lawful {t t' : Tracer} (effect : t.Effect t') (lawful : Lawful t) : Lawful t' := by
  cases effect with
  | nothing => exact lawful
  | forget name => exact lawful.forget name
  | append => exact ⟨lawful.traced, lawful.aliases⟩
  | assign gives => exact lawful.assign _ fun target isAlias => lawful.bindingOf (isAlias ▸ gives)
  | destructure means =>
      exact lawful.assignEntries fun name target inside => lawful.resolveEntries means inside

theorem Reachable.lawful {t : Tracer} (reached : Reachable t) : Lawful t := by
  induction reached with
  | start => exact ⟨rfl, fun name target found => by cases found⟩
  | observe e _ observed ih => exact (effect_of_observe observed).lawful ih

/-- The probe for loads asks the name of the callee what it is reported as. -/
theorem isLoad_matched_iff {t : Tracer} {e : Expr} {matched : Bool} {name : Text}
    (validated : Probe.Require.isLoad e t = .ok ⟨matched, some name⟩) :
    matched = true ↔ ∃ target, t.lookup name = .ok (some target) ∧ target.name = loader := by
  cases e with
  | call span callee arguments =>
      obtain ⟨name?, _, validated⟩ := Outcome.bind_eq_ok_iff.1 validated
      cases name? with
      | none => cases validated
      | some called =>
          obtain ⟨target?, looked, validated⟩ := Outcome.bind_eq_ok_iff.1 validated
          cases target? with
          | none =>
              cases validated
              simp [looked]
          | some target =>
              cases validated
              simp [looked]
  | _ => cases validated

/-- **The reported name is a function of the resolved name.**  After any observations, whatever a
name is traced to is reported under the name that the table of traced names has for its full name,
or under the full name itself.  So it is reported as a loader exactly if its full name is that of
one, and a call is matched as a load exactly if its callee is traced to such a full name. -/
theorem reported_of_resolved {t : Tracer} (reached : Reachable t) :
    (∀ name target, t.lookup name = .ok (some target) →
      target.name = (defaults.lookup target.resolved).getD target.resolved ∧
      (target.name = loader ↔ target.resolved ∈ loaders)) ∧
    ∀ e matched name, Probe.Require.isLoad e t = .ok ⟨matched, some name⟩ →
      (matched = true ↔
        ∃ target, t.lookup name = .ok (some target) ∧ target.resolved ∈ loaders) := by
  have lawful := reached.lawful
  refine ⟨fun name target found => ?_, fun e matched name validated => ?_⟩
  · have canonical := lawful.lookup found
    exact ⟨canonical, eq_loader_iff canonical⟩
  · rw [isLoad_matched_iff validated]
    constructor
    · rintro ⟨target, found, isLoader⟩
      exact ⟨target, found, (eq_loader_iff (lawful.lookup found)).1 isLoader⟩
    · rintro ⟨target, found, isLoader⟩
      exact ⟨target, found, (eq_loader_iff (lawful.lookup found)).2 isLoader⟩

/-- `const p = process`. -/
def processAsP : Expr :=
  .definition .unknown (.identifier .unknown "p") (.identifier .unknown "process")

/-- `const r = p.mainModule.require`. -/
def loaderOfP : Expr :=
  .definition .unknown (.identifier .unknown "r")
    (.member .unknown
      (.member .unknown (.identifier .unknown "p") (.identifier .unknown "mainModule") false)
      (.identifier .unknown "require") false)

/-- `r("fs")`. -/
def loadThroughR : Expr :=
  .call .unknown (.identifier .unknown "r") [.string .unknown "fs"]

/-- The state after the first: `p` stands for `process`. -/
def withProcessAsP : Tracer :=
  { Tracer.default with aliases := ⟨[("p", ⟨"process", "process"⟩)]⟩ }

/-- The state after both: `r` is an alias through an alias. -/
def withLoaderOfP : Tracer :=
  { Tracer.default with
    aliases := ⟨[("r", ⟨"require", "process.mainModule.require"⟩), ("p", ⟨"process", "process"⟩)]⟩ }

/-- The full name of `r` makes it a loader, and its call a load. -/
theorem loaderOfP_reported :
    Reachable withLoaderOfP ∧
    withLoaderOfP.lookup "r" = .ok (some ⟨"require", "process.mainModule.require"⟩) ∧
    Text.ofString "require" =
      (defaults.lookup ("process.mainModule.require" : Text)).getD "process.mainModule.require" ∧
    ∃ matched, Probe.Require.isLoad loadThroughR withLoaderOfP = .ok ⟨matched, some "r"⟩ ∧
      matched = true := by
  have first : Tracer.default.observe processAsP = .ok withProcessAsP := rfl
  have second : withProcessAsP.observe loaderOfP = .ok withLoaderOfP := rfl
  have reached : Reachable withLoaderOfP := .observe _ (.observe _ .start first) second
  have found : withLoaderOfP.lookup "r" =
      .ok (some ⟨"require", "process.mainModule.require"⟩) := rfl
  obtain ⟨matched, validated⟩ : ∃ matched,
      Probe.Require.isLoad loadThroughR withLoaderOfP = .ok ⟨matched, some "r"⟩ := ⟨_, rfl⟩
  obtain ⟨reported, loads⟩ := reported_of_resolved reached
  exact ⟨reached, found, (reported _ _ found).1, matched, validated,
    (loads _ _ _ validated).2 ⟨_, found, by decide⟩⟩

end Tracer

end HiddenLoads
