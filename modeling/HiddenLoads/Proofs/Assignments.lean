/-
# HiddenLoads.Proofs.Assignments -- what an assignment leaves of the binding before

After an assignment a name must not be taken for what it was before: a load would be reported with
an outdated specifier, in full confidence.  `Expr.assigned` are the names that a target assigns, and
`Tracer.Gives` says what the assigned value gives to one of them.

* A name by itself holds what the value gives, and so does every name of an object pattern: the
  member of the value, or of the loaded module, that its key asks for.
* An array pattern is not looked at.  Every name in it keeps what it held, whatever the value is.

So a name in an array pattern is taken for what it was, unless it held nothing or what some part of
the value gives anyway (`Tracer.derived_iff_of_assigns`).
-/
import HiddenLoads.Pass
import HiddenLoads.Proofs.CallSites
import HiddenLoads.Proofs.Holdings

namespace HiddenLoads

set_option autoImplicit false

namespace Expr

/-- The expression assigns a value to a target. -/
inductive Assigns : Expr → Expr → Expr → Prop
  | define (span : Span) (target value : Expr) :
      Assigns (.definition span target value) target value
  | assign (span : Span) (target value : Expr) :
      Assigns (.assignment span "=" target value) target value

/-- `[a, b]` as the target of an assignment. -/
def isArrayPattern : Expr → Bool
  | .other _ kind _ => kind = .arrayPattern
  | _ => false

def isTarget : Expr → Bool
  | .identifier .. | .pattern .. => true
  | e => e.isArrayPattern

/-- `target = fallback` inside a pattern. -/
def withDefault : Kind := .other "assignment_pattern"

mutual

/-- The names that a target assigns.  In an array pattern they stand at any depth, but not in the
values that stand in for missing elements. -/
def assigned : Expr → List Text
  | .identifier _ name => [name]
  | .pattern _ entries => entries.map (·.name)
  | .other _ kind nested => if kind = withDefault then assignedFirst nested else assignedAll nested
  | _ => []

def assignedFirst : List Expr → List Text
  | [] => []
  | e :: _ => assigned e

def assignedAll : List Expr → List Text
  | [] => []
  | e :: es => assigned e ++ assignedAll es

end

end Expr

namespace Tracer

/-- What a key of an object pattern means for a value: a member of the loaded module, or of what
the value names. -/
def keyMeaning (t : Tracer) (value : Expr) (key : Text) : Except Failure (Option Traced) := do
  match ← t.requiredModule? value with
  | some module => .ok (some (t.fromModule module key))
  | none =>
      match ← Expr.name? t.literals value with
      | some dotted => t.lookup (dot dotted key)
      | none => .ok none

/-- What a value gives to a name in a target.  The elements of an array pattern may get any part of
the value. -/
inductive Gives (t : Tracer) (value : Expr) (name : Text) : Expr → Binding → Prop
  | name {binding : Binding} (span : Span) (gives : t.bindingOf name value = .ok binding) :
      Gives t value name (.identifier span name) binding
  | entry {entries : List Entry} {entry : Entry} {target? : Option Traced} (span : Span)
      (inside : entry ∈ entries) (isName : entry.name = name)
      (means : t.keyMeaning value entry.key = .ok target?) :
      Gives t value name (.pattern span entries) (.ofTarget? target?)
  | part {part : Expr} {nested : List Expr} {binding : Binding} (span : Span)
      (inside : part ∈ value.within) (gives : t.bindingOf name part = .ok binding) :
      Gives t value name (.other span .arrayPattern nested) binding

/-- After the assignment the name holds nothing, or what the value gives to it. -/
def Derived (t t' : Tracer) (target value : Expr) (name : Text) : Prop :=
  t'.Holds name .nothing ∨ ∃ binding, t.Gives value name target binding ∧ t'.Holds name binding

/-! ## Object patterns -/

/-- The entries of a pattern are resolved one by one. -/
theorem mapM_keyMeaning {t : Tracer} {value : Expr} {entries : List Entry}
    {resolved : List (Text × Option Traced)} (means : t.resolveEntries value entries = .ok resolved) :
    entries.mapM (fun entry => do .ok (entry.name, ← t.keyMeaning value entry.key)) =
      .ok resolved := by
  obtain ⟨module?, loads, means⟩ := Outcome.bind_eq_ok_iff.1 means
  cases module? with
  | some module =>
      cases means
      rw [Outcome.mapM_eq_ok_iff, List.forall₂_map_right_iff, List.forall₂_same]
      intro entry _
      simp only [keyMeaning, loads, Outcome.ok_bind]
  | none =>
      obtain ⟨dotted?, names, means⟩ := Outcome.bind_eq_ok_iff.1 means
      cases dotted? with
      | none =>
          cases means
          rw [Outcome.mapM_eq_ok_iff, List.forall₂_map_right_iff, List.forall₂_same]
          intro entry _
          simp only [keyMeaning, loads, names, Outcome.ok_bind]
      | some dotted =>
          rw [← means]
          simp only [keyMeaning, loads, names, Outcome.ok_bind]

/-- Every name of an object pattern holds what one of its keys means. -/
theorem gives_of_resolveEntries {t : Tracer} {value : Expr} {entries : List Entry}
    {resolved : List (Text × Option Traced)} {name : Text}
    (means : t.resolveEntries value entries = .ok resolved) (inside : name ∈ entries.map (·.name))
    (span : Span) :
    ∃ binding, t.Gives value name (.pattern span entries) binding ∧
      (t.assignEntries resolved).Holds name binding := by
  rw [← names_of_resolveEntries means] at inside
  obtain ⟨target?, last⟩ := exists_last inside
  have member : (name, target?) ∈ resolved := by
    obtain ⟨before, after, split, -⟩ := List.lookup_eq_some_iff.1 last
    rw [← List.mem_reverse, split]
    exact List.mem_append_right _ List.mem_cons_self
  have each := Outcome.mapM_eq_ok_iff.1 (mapM_keyMeaning means)
  obtain ⟨entry, listed, resolves⟩ := (Outcome.mem_iff_of_forall₂ each _).1 member
  obtain ⟨found?, meaning, same⟩ := Outcome.bind_eq_ok_iff.1 resolves
  cases same
  exact ⟨_, .entry span listed rfl meaning, holds_assignEntries t last⟩

/-! ## All targets -/

/-- An assignment binds its target. -/
theorem observe_of_assigns {e target value : Expr} (assigns : e.Assigns target value) (t : Tracer) :
    t.observe e = t.bind target value := by
  cases assigns with
  | define => rfl
  | assign =>
      rw [observe.eq_def]
      exact if_pos rfl

/-- A name, alone or in an object pattern, holds what the value gives. -/
theorem derived_of_bind {t t' : Tracer} {target value : Expr} {name : Text}
    (isTarget : target.isTarget = true) (read : target.isArrayPattern = false)
    (inside : name ∈ target.assigned) (done : t.bind target value = .ok t') :
    t.Derived t' target value name := by
  cases target with
  | identifier span other =>
      obtain ⟨binding, gives, done⟩ := Outcome.bind_eq_ok_iff.1 done
      cases done
      rw [Expr.assigned, List.mem_singleton] at inside
      subst inside
      exact .inr ⟨binding, .name span gives, holds_assign t name binding⟩
  | pattern span entries =>
      obtain ⟨resolved, means, done⟩ := Outcome.bind_eq_ok_iff.1 done
      cases done
      rw [Expr.assigned] at inside
      exact .inr (gives_of_resolveEntries means inside span)
  | other span kind nested => exact absurd (read.symm.trans isTarget) Bool.false_ne_true
  | _ => cases isTarget

/-- An array pattern is not looked at. -/
theorem bind_arrayPattern {target : Expr} (isArray : target.isArrayPattern = true) (t : Tracer)
    (value : Expr) : t.bind target value = .ok t := by
  cases target with
  | other => rfl
  | _ => cases isArray

/-- **A binding is outdated only in an array pattern.**  After an assignment to a name, an object
pattern or an array pattern, every name that it assigns holds nothing or what the value gives, unless
the target is an array pattern.  That changes nothing at all, so its names hold what they held, and
this is right only for those that held nothing, or what a part of the value gives. -/
theorem derived_iff_of_assigns {t t' : Tracer} {e target value : Expr} {name : Text}
    (assigns : e.Assigns target value) (isTarget : target.isTarget = true)
    (inside : name ∈ target.assigned) (observed : t.observe e = .ok t') :
    (t.Derived t' target value name ↔
      (target.isArrayPattern = true → t.Derived t target value name)) ∧
    (target.isArrayPattern = true → t' = t) := by
  rw [observe_of_assigns assigns] at observed
  cases isArray : target.isArrayPattern with
  | true =>
      rw [bind_arrayPattern isArray, Except.ok.injEq] at observed
      subst observed
      exact ⟨⟨fun derived _ => derived, fun derived => derived rfl⟩, fun _ => rfl⟩
  | false =>
      have derived := derived_of_bind isTarget isArray inside observed
      exact ⟨iff_of_true derived fun isTrue => absurd isTrue Bool.false_ne_true,
        fun isTrue => absurd isTrue Bool.false_ne_true⟩

/-- The state in which `x` holds the text `a`. -/
def withXAsA : Tracer := { Tracer.default with literals := ⟨[("x", "a")]⟩ }

/-- `({ posix: x, join: x } = require("path"))`. -/
def memberAsX : Expr :=
  .assignment .unknown "="
    (.pattern .unknown [⟨"posix", "x"⟩, ⟨"join", "x"⟩])
    (.call .unknown (named "require") [quoted "path"])

/-- A pattern leaves nothing of the text: its last entry counts. -/
theorem memberAsX_derived :
    ∃ t', withXAsA.observe memberAsX = .ok t' ∧
      t'.Holds "x" (.alias ⟨"path.join", "path.join"⟩) ∧
      ∃ target value, memberAsX.Assigns target value ∧ withXAsA.Derived t' target value "x" := by
  obtain ⟨t', observed⟩ : ∃ t', withXAsA.observe memberAsX = .ok t' := ⟨_, rfl⟩
  have assigns := Expr.Assigns.assign .unknown (.pattern .unknown [⟨"posix", "x"⟩, ⟨"join", "x"⟩])
    (.call .unknown (named "require") [quoted "path"])
  have inside : Text.ofString "x" ∈
      (Expr.pattern .unknown [⟨"posix", "x"⟩, ⟨"join", "x"⟩]).assigned := by decide
  have derived := (derived_iff_of_assigns assigns rfl inside observed).1.2
    fun isArray => absurd isArray (by decide)
  cases observed
  exact ⟨_, rfl, ⟨rfl, rfl, rfl⟩, _, _, assigns, derived⟩

/-- `[x] = ["b"]` as rows. -/
def arrayAsXRows : Tree :=
  Expr.rowOf .assignment (.other []) 0 11
    [Expr.rowOf .arrayPattern .left 0 3 [Expr.rowOf .identifier (.other []) 1 2 []],
      Expr.rowOf .array .right 6 11 [Expr.rowOf .string (.other []) 7 10 []]]

def arrayOfX : Expr := .other ⟨1, 0, 1, 3⟩ .arrayPattern [.identifier ⟨1, 1, 1, 2⟩ "x"]

def arrayOfB : Expr := .array ⟨1, 6, 1, 11⟩ [.string ⟨1, 7, 1, 10⟩ "b"]

def arrayAsX : Expr := .assignment ⟨1, 0, 1, 11⟩ "=" arrayOfX arrayOfB

/-- `let x = "a"`, then the expression, then `require(x)`. -/
def loadAfter (e : Expr) : Expr :=
  .other .unknown (.other "program")
    [.definition .unknown (named "x") (quoted "a"), e,
      .call .unknown (named "require") [named "x"]]

/-- An array pattern leaves the text in place: `x` still holds `a`, which no part of the value
gives, and a load of `x` is recorded as one of `a` without any warning. -/
theorem arrayAsX_outdated :
    Expr.ofTree (Expr.asciiSource "[x] = [\"b\"]") arrayAsXRows = .ok arrayAsX ∧
    arrayAsX.Assigns arrayOfX arrayOfB ∧ arrayOfX.isTarget = true ∧
    Text.ofString "x" ∈ arrayOfX.assigned ∧
    withXAsA.observe arrayAsX = .ok withXAsA ∧ withXAsA.Holds "x" (.literal "a") ∧
    ¬ withXAsA.Derived withXAsA arrayOfX arrayOfB "x" ∧
    ∃ r, Pass.walk Pass.defaultProbes (loadAfter arrayAsX) (.start Analysis.inMemory false) = .ok r ∧
      r.dependencies.map (·.specifier) = ["a"] ∧ r.warnings = [] := by
  have holds : withXAsA.Holds "x" (.literal "a") := ⟨rfl, rfl, rfl⟩
  have converts : Expr.ofTree (Expr.asciiSource "[x] = [\"b\"]") arrayAsXRows = .ok arrayAsX :=
    (Expr.ofTree_eq_convert _ _).trans rfl
  refine ⟨converts, .assign _ _ _, rfl, by decide, rfl, holds, ?_, _, rfl, by decide, rfl⟩
  rintro (holdsNothing | ⟨binding, gives, holdsPart⟩)
  · cases holds.unique holdsNothing
  · cases holds.unique holdsPart
    cases gives with
    | part span inside gives =>
        simp only [arrayOfB, Expr.within, Expr.withinAll, List.append_nil, List.mem_cons,
          List.not_mem_nil, or_false] at inside
        rcases inside with rfl | rfl
        · cases gives
        · cases gives

end Tracer

end HiddenLoads
