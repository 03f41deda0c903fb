/-
# HiddenLoads.Proofs.Following -- what following a name depends on

Following a name is a loop with a memory, but its answer depends on where it goes alone.

* A name means what the next name on the way means (`lookup_of_renames`): it does not matter at which
  of them the loop begins, and that the memory then lacks a name.
* Two tracers that take the same steps from a name on give the same answer (`lookup_congr`), whatever
  else they know and however their maps are kept.

The first step, in turn, depends on the name itself and on its first segment.  The lemmas on
`Tracer.move` say how, one for each way.
-/
import HiddenLoads.Proofs.Observe

namespace HiddenLoads

set_option autoImplicit false

namespace Tracer

variable {t t' : Tracer}

theorem dot_ne_nil (left right : Text) : dot left right ≠ [] := by simp [dot]

theorem cut_dot {head : Text} (whole : CodePoint.ofChar '.' ∉ head) (rest : Text) :
    (dot head rest).cut '.' = (head, rest) := Text.cut_append whole rest

/-! ## Where the loop ends -/

/-- The loop finds what the way of the name comes to. -/
theorem exists_found_of_loop {turns : Nat} {seen : List Text} {name : Text} {target : Traced}
    (ended : t.loop turns seen name = some (some target)) :
    ∃ other, Relation.ReflTransGen t.Renames name other ∧ t.move other = .found target := by
  induction turns generalizing seen name with
  | zero => cases ended
  | succ turns ih =>
      rw [loop_succ] at ended
      split at ended
      · cases ended
      · cases moved : t.move name with
        | found target' =>
            rw [moved] at ended
            cases ended
            exact ⟨name, .refl, moved⟩
        | untraced =>
            rw [moved] at ended
            cases ended
        | rename next =>
            rw [moved] at ended
            obtain ⟨other, leads, found⟩ := ih ended
            exact ⟨other, .head moved leads, found⟩

/-- Names on the way to a find are met for the first time, so the loop gets there. -/
theorem exists_loop_of_found {seen : List Text} {name other : Text} {target : Traced}
    (trodden : t.Trodden seen name) (leads : Relation.ReflTransGen t.Renames name other)
    (found : t.move other = .found target) : ∃ turns, t.loop turns seen name = some (some target) := by
  have fresh : ∀ {seen : List Text} {name : Text}, t.Trodden seen name →
      Relation.ReflTransGen t.Renames name other → seen.contains name = false := by
    intro seen name trodden leads
    -- a name that was met before leads back for ever, and never to a find
    by_contra back
    have inside := trodden.stays (List.contains_iff_mem.1 (eq_true_of_ne_false back)) leads
    obtain ⟨new, renamed, -⟩ := trodden other inside
    rw [Renames, found] at renamed
    cases renamed
  induction leads using Relation.ReflTransGen.head_induction_on generalizing seen with
  | refl =>
      refine ⟨1, ?_⟩
      rw [loop_succ, fresh trodden .refl, found]
      rfl
  | head step leads ih =>
      obtain ⟨turns, ended⟩ := ih (trodden.cons step)
      refine ⟨turns + 1, ?_⟩
      rw [loop_succ, fresh trodden (.head step leads), show t.move _ = .rename _ from step]
      exact ended

theorem answers_some_iff {name : Text} {target : Traced} :
    t.Answers name (some target) ↔
      ∃ other, Relation.ReflTransGen t.Renames name other ∧ t.move other = .found target := by
  constructor
  · rintro ⟨turns, ended⟩
    exact exists_found_of_loop ended
  · rintro ⟨other, leads, found⟩
    exact exists_loop_of_found (fun old member => absurd member List.not_mem_nil) leads found

/-! ## One step further -/

/-- A find lies ahead of a name exactly if it lies ahead of the next one. -/
theorem Renames.answers_some_iff {name next : Text} (step : t.Renames name next) (target : Traced) :
    t.Answers name (some target) ↔ t.Answers next (some target) := by
  rw [Tracer.answers_some_iff, Tracer.answers_some_iff]
  constructor
  · rintro ⟨other, leads, found⟩
    rcases Relation.ReflTransGen.cases_head leads with rfl | ⟨next', step', leads⟩
    · rw [Renames, found] at step
      cases step
    · rw [step.unique step']
      exact ⟨other, leads, found⟩
  · rintro ⟨other, leads, found⟩
    exact ⟨other, .head step leads, found⟩

/-- A segment regrows ahead of a name exactly if one does ahead of the next name. -/
theorem Renames.regrowth_iff {name next : Text} (step : t.Renames name next) :
    t.Regrowth name ↔ t.Regrowth next := by
  constructor
  · rintro ⟨head, growth, rest, regrows, long, leads⟩
    rcases Relation.ReflTransGen.cases_head leads with rfl | ⟨next', step', leads⟩
    · -- the name itself regrows, so the next one leads to where it has grown
      have again := regrows rest long
      rw [dot_assoc] at again
      obtain ⟨next', step', leads⟩ := Relation.TransGen.head'_iff.1 again
      rw [← step.unique step'] at leads
      refine ⟨head, growth, dot growth rest, regrows, ?_, leads⟩
      rw [segmentCount_dot]
      omega
    · rw [← step.unique step'] at leads
      exact ⟨head, growth, rest, regrows, long, leads⟩
  · rintro ⟨head, growth, rest, regrows, long, leads⟩
    exact ⟨head, growth, rest, regrows, long, .head step leads⟩

theorem regrowth_of_not_exits {name : Text} (endless : ¬ t.Exits name) : t.Regrowth name := by
  cases looked : t.lookup name with
  | ok answer => exact absurd (exits_of_lookup looked) endless
  | error failure => exact (regrowth_of_lookup looked).2

theorem Renames.exits_iff {name next : Text} (step : t.Renames name next) :
    t.Exits name ↔ t.Exits next := by
  constructor
  · intro exits
    by_contra endless
    exact (step.regrowth_iff.2 (regrowth_of_not_exits endless)).not_exits exits
  · intro exits
    by_contra endless
    exact (step.regrowth_iff.1 (regrowth_of_not_exits endless)).not_exits exits

/-- A name that is renamed has a part behind its first segment, and what comes of it is no empty
name either. -/
theorem Renames.ne_nil {name next : Text} (step : t.Renames name next) : name ≠ [] ∧ next ≠ [] := by
  rw [Renames, move] at step
  split at step
  · cases step
  · split at step
    · cases step
    · simp only at step
      split at step
      · cases step
      · rename_i more
        have named : name ≠ [] := by
          rintro rfl
          exact more rfl
        split at step
        · cases step
        · split at step
          · cases step
            exact ⟨named, dot_ne_nil _ _⟩
          · split at step
            · cases step
              exact ⟨named, more⟩
            · cases step

/-- Two names mean the same if the loop ends for both or for neither, and finds the same. -/
theorem lookup_eq_of_answers {name name' : Text} (nonempty : name ≠ []) (nonempty' : name' ≠ [])
    (exits : t.Exits name ↔ t'.Exits name')
    (finds : ∀ target, t.Answers name (some target) ↔ t'.Answers name' (some target)) :
    t.lookup name = t'.lookup name' := by
  cases looked : t.lookup name with
  | error failure =>
      obtain ⟨rfl, regrowth⟩ := regrowth_of_lookup looked
      cases looked' : t'.lookup name' with
      | error failure' => rw [(regrowth_of_lookup looked').1]
      | ok answer' => exact absurd (exits.2 (exits_of_lookup looked')) regrowth.not_exits
  | ok answer =>
      have answers := answers_of_lookup nonempty looked
      cases looked' : t'.lookup name' with
      | error failure' =>
          exact absurd (exits.1 ⟨answer, answers⟩) (regrowth_of_lookup looked').2.not_exits
      | ok answer' =>
          have answers' := answers_of_lookup nonempty' looked'
          cases answer with
          | some target => rw [((finds target).1 answers).unique answers']
          | none =>
              cases answer' with
              | none => rfl
              | some target => cases answers.unique ((finds target).2 answers')

/-- **A name means what the next name on the way means.** -/
theorem lookup_of_renames {name next : Text} (step : t.Renames name next) :
    t.lookup name = t.lookup next :=
  lookup_eq_of_answers step.ne_nil.1 step.ne_nil.2 step.exits_iff step.answers_some_iff

/-! ## The same steps -/

theorem loop_congr {name : Text} (agree : ∀ other, Relation.ReflTransGen t.Renames name other →
      t'.move other = t.move other) (turns : Nat) (seen : List Text) :
    t'.loop turns seen name = t.loop turns seen name := by
  induction turns generalizing seen name with
  | zero => rfl
  | succ turns ih =>
      rw [loop_succ, loop_succ, agree name .refl]
      cases moved : t.move name with
      | found target => rfl
      | untraced => rfl
      | rename next =>
          have same := ih fun other leads => agree other (.head moved leads)
          simp only [same]

/-- **The same steps lead to the same answer.** -/
theorem lookup_congr {name : Text} (agree : ∀ other, Relation.ReflTransGen t.Renames name other →
      t'.move other = t.move other) : t'.lookup name = t.lookup name := by
  by_cases empty : name = []
  · rw [lookup, if_pos empty, lookup, if_pos empty]
  · have answers : ∀ answer, t'.Answers name answer ↔ t.Answers name answer := by
      intro answer
      rw [Answers, Answers]
      simp only [loop_congr agree]
    apply lookup_eq_of_answers empty empty
    · exact exists_congr answers
    · intro target
      exact answers (some target)

/-- Following the name never comes to `avoided` or a member of it. -/
def Avoids (t : Tracer) (avoided name : Text) : Prop :=
  ∀ other, Relation.ReflTransGen t.Renames name other → (other.cut '.').1 ≠ avoided

/-- A name that is written nowhere on the way is avoided. -/
theorem avoids_of_not_mem {avoided name : Text} (absent : avoided ∉ t.letters name) :
    t.Avoids avoided name := by
  intro other leads
  have spelled : segments other ⊆ t.letters name := by
    induction leads with
    | refl => exact List.subset_append_left _ _
    | tail _ step ih => exact spelled_of_renames (fun head piece => unfold_subset_letters name) step ih
  rintro rfl
  apply absent
  apply spelled
  rw [(segments_cut other).1]
  exact List.mem_cons_self

/-! ## The first step -/

/-- What a name is known as by itself, before anyone looks at its first segment. -/
def own? (t : Tracer) (name : Text) : Option Traced := (t.aliases.get? name).or (t.traced.get? name)

theorem move_of_own {name : Text} {own : Traced} (known : t.own? name = some own) :
    t.move name = .found own := by
  rw [own?] at known
  rw [move]
  cases isAlias : t.aliases.get? name with
  | some target =>
      rw [isAlias] at known
      cases known
      rfl
  | none =>
      rw [isAlias, Option.none_or] at known
      rw [known]

theorem lookup_of_own {name : Text} {own : Traced} (nonempty : name ≠ [])
    (known : t.own? name = some own) : t.lookup name = .ok (some own) := by
  rw [lookup_eq_of_move t nonempty, move_of_own known]

/-- A name without a dot is known by itself or not at all. -/
theorem lookup_of_whole {name : Text} (nonempty : name ≠ []) (whole : CodePoint.ofChar '.' ∉ name) :
    t.lookup name = .ok (t.own? name) := by
  cases known : t.own? name with
  | some own => exact lookup_of_own nonempty known
  | none =>
      obtain ⟨plain, untraced⟩ := Option.or_eq_none_iff.1 known
      exact lookup_of_untraced nonempty plain untraced (by rw [Text.cut_of_not_mem whole])

section Member

variable {head rest : Text} (whole : CodePoint.ofChar '.' ∉ head) (more : rest ≠ [])
  (unknown : t.own? (dot head rest) = none)

include whole more unknown

/-- The first step of a member that is not known by itself depends on the first segment. -/
theorem move_member :
    t.move (dot head rest) =
      match t.modules.get? head with
      | some module => .found (t.fromModule module rest)
      | none =>
          match t.aliases.get? head with
          | some target => .rename (dot target.resolved rest)
          | none => if globalObjects.contains head then .rename rest else .untraced := by
  obtain ⟨plain, untraced⟩ := Option.or_eq_none_iff.1 unknown
  rw [move, plain, untraced, cut_dot whole rest]
  exact if_neg more

theorem move_of_module {module : Text} (isModule : t.modules.get? head = some module) :
    t.move (dot head rest) = .found (t.fromModule module rest) := by
  rw [move_member whole more unknown, isModule]

theorem move_of_alias {target : Traced} (noModule : t.modules.get? head = none)
    (isAlias : t.aliases.get? head = some target) :
    t.move (dot head rest) = .rename (dot target.resolved rest) := by
  rw [move_member whole more unknown, noModule, isAlias]

theorem move_of_unbound (noModule : t.modules.get? head = none)
    (noAlias : t.aliases.get? head = none) :
    t.move (dot head rest) = if head ∈ globalObjects then .rename rest else .untraced := by
  rw [move_member whole more unknown, noModule, noAlias]
  simp only [List.contains_iff_mem]

end Member

/-- Names that are touched neither as a whole nor in their first segment take the same step. -/
theorem move_of_touches {names : List Text} (touches : Touches names t t') {name : Text}
    (apart : name ∉ names) (headApart : (name.cut '.').1 ∉ names) : t'.move name = t.move name := by
  simp only [move, fromModule, touches.traced, touches.aliases name apart,
    touches.aliases _ headApart, touches.modules _ headApart]

/-- What does not come to a touched name means what it meant. -/
theorem lookup_of_avoids {touched name : Text} (touches : Touches [touched] t t')
    (whole : CodePoint.ofChar '.' ∉ touched) (avoids : t.Avoids touched name) :
    t'.lookup name = t.lookup name := by
  apply lookup_congr
  intro other leads
  have headApart := avoids other leads
  have apart : other ≠ touched := by
    rintro rfl
    rw [Text.cut_of_not_mem whole] at headApart
    exact headApart rfl
  exact move_of_touches touches (by simpa using apart) (by simpa using headApart)

end Tracer

end HiddenLoads
