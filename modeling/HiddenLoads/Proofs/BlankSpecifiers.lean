/-
# HiddenLoads.Proofs.BlankSpecifiers -- which dependencies are blank

A blank specifier is no dependency, and one slash at the end of a specifier is dropped.  The test
comes before the slash is dropped, and a slash is not blank: blanks in front of a single slash pass
the test, and only the blanks are recorded (`Text.IsHollow`).  No other specifier becomes blank, so
the dependencies of an analysis all have something to read exactly if no such specifier has ever
been added (`Analysis.specifiers_solid_iff`).

An analysis changes in four ways (`Analysis.Change`).  `Change.specifiers_apply` says what one change
does to the specifiers, and `specifiers_run` what any number of them do.
-/
import HiddenLoads.Pass

namespace HiddenLoads

set_option autoImplicit false

namespace Text

def IsSolid (t : Text) : Prop := ∃ c ∈ t, c.isBlank = false

/-- At least one blank, nothing else, and then a slash. -/
def IsHollow (t : Text) : Prop :=
  ∃ blanks : Text, blanks ≠ [] ∧ blanks.isBlank = true ∧ t = blanks ++ [CodePoint.ofChar '/']

theorem isSolid_iff (t : Text) : t.IsSolid ↔ t.isBlank = false := by
  simp [IsSolid, isBlank]

instance (t : Text) : Decidable t.IsSolid := decidable_of_iff _ (isSolid_iff t).symm

/-- The slash is not blank. -/
theorem IsHollow.isBlank_eq_false {t : Text} (hollow : t.IsHollow) : t.isBlank = false := by
  obtain ⟨blanks, _, _, rfl⟩ := hollow
  rw [← isSolid_iff]
  exact ⟨CodePoint.ofChar '/', by simp, by decide⟩

end Text

namespace Analysis

open Text

/-- Dropping the slash makes a specifier blank only where there were blanks in front of it. -/
theorem isBlank_withoutSlash_iff {specifier : Text} (solid : specifier.isBlank = false) :
    (withoutSlash specifier).isBlank = true ↔ specifier.IsHollow := by
  rcases withoutSlash_cases specifier with ⟨before, nonempty, rfl, dropped⟩ | ⟨other, kept⟩
  · rw [dropped]
    constructor
    · intro blank
      exact ⟨before, nonempty, blank, rfl⟩
    · rintro ⟨blanks, _, blank, same⟩
      rwa [List.append_inj_left' same rfl]
  · rw [kept, solid]
    refine iff_of_false Bool.false_ne_true ?_
    rintro ⟨blanks, nonempty, _, same⟩
    exact other blanks nonempty same

/-! ## Changes -/

inductive Change where
  | dependency (specifier : Text) (location : Option Span) (dynamic : Bool)
  | warning (kind : Text) (location : Option Span) (value : Option Text)
  | mark (viaEval : Bool)
  | teardown

namespace Change

def apply (a : Analysis) : Change → Analysis
  | .dependency specifier location dynamic => a.addDependency specifier location dynamic
  | .warning kind location value => a.addWarning kind location value
  | .mark viaEval => { a with viaEval := viaEval }
  | .teardown => Probe.Require.teardown a

/-- The specifier that a change adds, unless it is blank. -/
def specifier? : Change → Option Text
  | .dependency specifier _ _ => if specifier.isBlank then none else some specifier
  | _ => none

end Change

def run (a : Analysis) (changes : List Change) : Analysis := changes.foldl Change.apply a

/-- One change adds at most one specifier, without the slash at its end. -/
theorem Change.specifiers_apply (a : Analysis) (change : Change) :
    (change.apply a).dependencies.map (·.specifier) =
      a.dependencies.map (·.specifier) ++ (change.specifier?.map withoutSlash).toList := by
  cases change with
  | dependency specifier location dynamic =>
      rw [apply, specifier?, addDependency]
      cases specifier.isBlank <;> simp
  | warning => simp [apply, addWarning, specifier?]
  | mark => simp [apply, specifier?]
  | teardown => simp [apply, Probe.Require.teardown, specifier?]

theorem specifiers_run (a : Analysis) (changes : List Change) :
    (a.run changes).dependencies.map (·.specifier) =
      a.dependencies.map (·.specifier) ++ (changes.filterMap Change.specifier?).map withoutSlash := by
  induction changes generalizing a with
  | nil => simp [run]
  | cons change changes ih =>
      have rest := ih (change.apply a)
      rw [Change.specifiers_apply] at rest
      rw [run, List.foldl_cons, ← run, rest]
      cases added : change.specifier? <;> simp [added]

def Change.AddsHollow : Change → Prop
  | .dependency specifier _ _ => specifier.IsHollow
  | _ => False

/-- What a change adds is solid, unless it is hollow before the slash is dropped. -/
theorem Change.solid_iff (change : Change) :
    (∀ specifier, change.specifier? = some specifier → (withoutSlash specifier).IsSolid) ↔
      ¬ change.AddsHollow := by
  cases change with
  | dependency specifier location dynamic =>
      rw [specifier?, AddsHollow]
      cases blank : specifier.isBlank with
      | true =>
          refine iff_of_true (fun _ none => by simp at none) fun hollow => ?_
          rw [hollow.isBlank_eq_false] at blank
          cases blank
      | false => simp [isSolid_iff, ← isBlank_withoutSlash_iff blank]
  | warning | mark | teardown => simp [specifier?, AddsHollow]

/-- **The dependencies of an analysis all have something to read exactly if no hollow specifier has
been added**, whatever else has happened to it since its beginning. -/
theorem specifiers_solid_iff (file : Text) (hasErrors : Bool) (changes : List Change) :
    (∀ d ∈ ((start file hasErrors).run changes).dependencies, d.specifier.IsSolid) ↔
      ∀ change ∈ changes, ¬ change.AddsHollow := by
  have recorded := specifiers_run (start file hasErrors) changes
  rw [start, List.map_nil, List.nil_append, ← start] at recorded
  calc (∀ d ∈ ((start file hasErrors).run changes).dependencies, d.specifier.IsSolid)
    _ ↔ ∀ s ∈ ((start file hasErrors).run changes).dependencies.map (·.specifier), s.IsSolid :=
        List.forall_mem_map.symm
    _ ↔ ∀ s ∈ changes.filterMap Change.specifier?, (withoutSlash s).IsSolid := by
        rw [recorded, List.forall_mem_map]
    _ ↔ ∀ change ∈ changes, ∀ s, change.specifier? = some s → (withoutSlash s).IsSolid := by
        simp only [List.mem_filterMap]
        exact ⟨fun all change inside s added => all s ⟨change, inside, added⟩,
          fun all s ⟨change, inside, added⟩ => all change inside s added⟩
    _ ↔ ∀ change ∈ changes, ¬ change.AddsHollow :=
        forall₂_congr fun change _ => change.solid_iff

/-- A blank in front of a slash is recorded as a blank, also where a whole pass comes across it:
`require(" /")`. -/
theorem blankBeforeSlash_recorded :
    ((start inMemory false).run [.dependency " /" none false]).dependencies =
        [⟨" ", none, false, false⟩] ∧
      ¬ Text.IsSolid " " ∧
      ∃ r, Pass.walk Pass.defaultProbes
          (.call .unknown (.identifier .unknown "require") [.string .unknown " /"])
          (start inMemory false) = .ok r ∧
        r.dependencies = [⟨" ", some .unknown, false, false⟩] ∧ r.warnings = [] :=
  ⟨by decide, by decide, _, rfl, rfl, rfl⟩

end Analysis

end HiddenLoads
