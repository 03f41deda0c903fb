/-
# HiddenLoads.Proofs.Lookup -- when following a name comes to an end

Following a name is a loop that stops at a name it has seen before.  That alone does not stop
it: where an alias stands for a longer name that begins with the alias itself, the name grows
and no name comes back.  `Tracer.loop` is the loop turn by turn, without any limit, and
`Tracer.Exits` says that it ends.

* `exits_iff_not_regrowth`: the loop ends unless the name leads to one whose first segment
  *regrows*, that is, comes back with a growth behind it in front of every name that is too long
  to be a key;
* the limits of `Tracer.lookup` are exact: it answers what the loop answers, and it gives up on
  a name exactly when the loop never ends.
-/
import HiddenLoads.Proofs.Names
import HiddenLoads.Tracer.Observe

namespace HiddenLoads

set_option autoImplicit false

namespace Bindings

variable {α : Type}

theorem mem_of_get? {b : Bindings α} {name : Text} {value : α} (found : b.get? name = some value) :
    (name, value) ∈ b.entries := by
  obtain ⟨before, after, entries, -⟩ := List.lookup_eq_some_iff.1 found
  rw [entries]
  simp

end Bindings

namespace Tracer

/-! ## The loop -/

/-- The answer of the loop that follows a name after the names in `seen`, if it has ended after
so many turns. -/
def loop (t : Tracer) : (turns : Nat) → (seen : List Text) → Text → Option (Option Traced)
  | 0, _, _ => none
  | turns + 1, seen, name =>
      if seen.contains name then some none
      else match t.move name with
        | .found target => some (some target)
        | .untraced => some none
        | .rename next => loop t turns (name :: seen) next

def Answers (t : Tracer) (name : Text) (answer : Option Traced) : Prop :=
  ∃ turns, t.loop turns [] name = some answer

def Exits (t : Tracer) (name : Text) : Prop := ∃ answer, t.Answers name answer

def Renames (t : Tracer) (name other : Text) : Prop := t.move name = .rename other

/-- In front of every name with as many segments as the longest key, `head` comes back with
`growth` behind it. -/
def Regrows (t : Tracer) (head growth : Text) : Prop :=
  ∀ rest, t.longestKey ≤ segmentCount rest →
    Relation.TransGen t.Renames (dot head rest) (dot (dot head growth) rest)

def Regrowth (t : Tracer) (name : Text) : Prop :=
  ∃ head growth rest, t.Regrows head growth ∧ t.longestKey ≤ segmentCount rest ∧
    Relation.ReflTransGen t.Renames name (dot head rest)

theorem loop_succ (t : Tracer) (turns : Nat) (seen : List Text) (name : Text) :
    t.loop (turns + 1) seen name =
      if seen.contains name then some none
      else match t.move name with
        | .found target => some (some target)
        | .untraced => some none
        | .rename next => t.loop turns (name :: seen) next := rfl

/-- A name has at most one name after it. -/
theorem Renames.unique {t : Tracer} {name other other' : Text} (first : t.Renames name other)
    (second : t.Renames name other') : other = other' := by
  rw [Renames, first] at second
  exact Move.rename.inj second

/-- More turns do not change an answer. -/
theorem loop_mono {t : Tracer} {turns more : Nat} {seen : List Text} {name : Text}
    {answer : Option Traced} (ended : t.loop turns seen name = some answer) (h : turns ≤ more) :
    t.loop more seen name = some answer := by
  induction turns generalizing more seen name with
  | zero => simp [loop] at ended
  | succ turns ih =>
      obtain ⟨more, rfl⟩ := Nat.exists_eq_succ_of_ne_zero (Nat.ne_zero_of_lt h)
      rw [loop_succ] at ended ⊢
      by_cases back : seen.contains name = true
      · rwa [if_pos back] at ended ⊢
      · rw [if_neg back] at ended ⊢
        cases moved : t.move name with
        | found target => simpa only [moved] using ended
        | untraced => simpa only [moved] using ended
        | rename next =>
            simp only [moved] at ended ⊢
            exact ih ended (Nat.le_of_succ_le_succ h)

/-- The loop has one answer. -/
theorem Answers.unique {t : Tracer} {name : Text} {answer answer' : Option Traced}
    (first : t.Answers name answer) (second : t.Answers name answer') : answer = answer' := by
  obtain ⟨turns, ended⟩ := first
  obtain ⟨turns', ended'⟩ := second
  have early := loop_mono ended (Nat.le_max_left turns turns')
  rw [loop_mono ended' (Nat.le_max_right turns turns'), Option.some.injEq] at early
  exact early.symm

/-! ## A loop that ends meets finitely many names -/

/-- Every name in `seen` is renamed to another one there, or to `name`. -/
def Trodden (t : Tracer) (seen : List Text) (name : Text) : Prop :=
  ∀ old ∈ seen, ∃ new, t.Renames old new ∧ (new ∈ seen ∨ new = name)

theorem Trodden.cons {t : Tracer} {seen : List Text} {name next : Text}
    (trodden : t.Trodden seen name) (step : t.Renames name next) :
    t.Trodden (name :: seen) next := by
  intro old member
  rcases List.mem_cons.1 member with rfl | member
  · exact ⟨next, step, .inr rfl⟩
  · obtain ⟨new, renamed, place⟩ := trodden old member
    exact ⟨new, renamed, .inl (List.mem_cons.2 place.symm)⟩

/-- Names that lead back into `seen` never leave it. -/
theorem Trodden.stays {t : Tracer} {seen : List Text} {name other : Text}
    (trodden : t.Trodden seen name) (back : name ∈ seen)
    (leads : Relation.ReflTransGen t.Renames name other) : other ∈ seen := by
  induction leads with
  | refl => exact back
  | tail _ step ih =>
      obtain ⟨new, renamed, place⟩ := trodden _ ih
      rw [step.unique renamed]
      rcases place with inside | rfl
      · exact inside
      · exact back

theorem finite_of_loop {t : Tracer} {turns : Nat} {seen : List Text} {name : Text}
    {answer : Option Traced} (trodden : t.Trodden seen name)
    (ended : t.loop turns seen name = some answer) :
    ∃ met : List Text, ∀ other, Relation.ReflTransGen t.Renames name other → other ∈ met := by
  induction turns generalizing seen name with
  | zero => simp [loop] at ended
  | succ turns ih =>
      rw [loop_succ] at ended
      split at ended
      · rename_i back
        exact ⟨seen, fun other leads => trodden.stays (List.contains_iff_mem.1 back) leads⟩
      · have only : (∀ next, ¬ t.Renames name next) → ∀ other,
            Relation.ReflTransGen t.Renames name other → other ∈ [name] := by
          intro stuck other leads
          rcases Relation.ReflTransGen.cases_head leads with rfl | ⟨next, step, -⟩
          · exact List.mem_singleton_self _
          · exact absurd step (stuck next)
        cases moved : t.move name with
        | found target => exact ⟨[name], only fun next step => by simp [Renames, moved] at step⟩
        | untraced => exact ⟨[name], only fun next step => by simp [Renames, moved] at step⟩
        | rename next =>
            simp only [moved] at ended
            obtain ⟨met, all⟩ := ih (trodden.cons moved) ended
            refine ⟨name :: met, fun other leads => ?_⟩
            rcases Relation.ReflTransGen.cases_head leads with rfl | ⟨next', step, leads⟩
            · exact List.mem_cons_self
            · rw [step.unique moved] at leads
              exact List.mem_cons_of_mem _ (all other leads)

theorem init_le_foldl_max (init : Nat) (values : List Nat) : init ≤ values.foldl max init := by
  induction values generalizing init with
  | nil => exact Nat.le_refl init
  | cons value values ih => exact (Nat.le_max_left init value).trans (ih (max init value))

theorem le_foldl_max (init : Nat) {values : List Nat} {n : Nat} (member : n ∈ values) :
    n ≤ values.foldl max init := by
  induction values generalizing init with
  | nil => cases member
  | cons value values ih =>
      rcases List.mem_cons.1 member with rfl | member
      · exact (Nat.le_max_right init n).trans (init_le_foldl_max (max init n) values)
      · exact ih (max init value) member

theorem segmentCount_dot (left right : Text) :
    segmentCount (dot left right) = segmentCount left + segmentCount right := by
  rw [← length_segments, segments_dot, List.length_append, length_segments, length_segments]

theorem dot_assoc (a b c : Text) : dot (dot a b) c = dot a (dot b c) := by
  simp [dot]

/-- A segment that regrows leads to names of any length. -/
theorem Regrows.exists_longer {t : Tracer} {head growth rest : Text}
    (regrows : t.Regrows head growth) (long : t.longestKey ≤ segmentCount rest) (n : Nat) :
    ∃ longer, n ≤ segmentCount longer ∧ t.longestKey ≤ segmentCount longer ∧
      Relation.ReflTransGen t.Renames (dot head rest) (dot head longer) := by
  induction n with
  | zero => exact ⟨rest, Nat.zero_le _, long, .refl⟩
  | succ n ih =>
      obtain ⟨longer, big, enough, leads⟩ := ih
      have again := (regrows longer enough).to_reflTransGen
      rw [dot_assoc] at again
      have grown : 0 < segmentCount growth := Nat.succ_pos _
      refine ⟨dot growth longer, ?_, ?_, leads.trans again⟩ <;> rw [segmentCount_dot] <;> omega

/-- Where a segment regrows, the loop does not end. -/
theorem Regrowth.not_exits {t : Tracer} {name : Text} (regrowth : t.Regrowth name) :
    ¬ t.Exits name := by
  rintro ⟨answer, turns, ended⟩
  obtain ⟨head, growth, rest, regrows, long, arrives⟩ := regrowth
  obtain ⟨met, all⟩ := finite_of_loop (fun old member => absurd member List.not_mem_nil) ended
  obtain ⟨longer, big, -, leads⟩ :=
    regrows.exists_longer long ((met.map segmentCount).foldl max 0 + 1)
  have bounded := le_foldl_max 0 (List.mem_map_of_mem (f := segmentCount)
    (all _ (arrives.trans leads)))
  rw [segmentCount_dot] at bounded
  omega

/-! ## A loop that does not end regrows a segment -/

theorem segmentCount_joinWith_ge (word : List Text) :
    word.length ≤ segmentCount (Text.joinWith '.' word) := by
  fun_induction Text.joinWith (CodePoint.ofChar '.') word with
  | case1 => exact Nat.zero_le _
  | case2 part => exact Nat.succ_le_succ (Nat.zero_le _)
  | case3 part next parts ih =>
      have split := segmentCount_dot part (Text.joinWith '.' (next :: parts))
      have some : 0 < segmentCount part := Nat.succ_pos _
      rw [dot] at split
      rw [split, List.length_cons]
      omega

theorem key_le_longestKey {t : Tracer} {name : Text}
    (bound : (t.aliases.get? name).isSome = true ∨ (t.traced.get? name).isSome = true) :
    segmentCount name ≤ t.longestKey := by
  apply le_foldl_max
  rw [List.mem_append]
  rcases bound with bound | bound
  · obtain ⟨target, found⟩ := Option.isSome_iff_exists.1 bound
    exact .inl (List.mem_map_of_mem (f := fun entry => segmentCount entry.1)
      (Bindings.mem_of_get? found))
  · obtain ⟨target, found⟩ := Option.isSome_iff_exists.1 bound
    exact .inr (List.mem_map_of_mem (f := fun entry => segmentCount entry.1)
      (Bindings.mem_of_get? found))

/-- A word with more letters than the longest key has segments does not settle. -/
theorem settlesBelow_longestKey (t : Tracer) : t.unfolding.SettlesBelow t.longestKey := by
  intro word settles
  simp only [unfolding, Bool.or_eq_true, List.isEmpty_iff] at settles
  rcases settles with bound | memberless
  · exact (segmentCount_joinWith_ge word).trans (key_le_longestKey bound)
  · refine Nat.le_trans ?_ (init_le_foldl_max 2 _)
    rcases word with _ | ⟨head, _ | ⟨part, _ | ⟨part', parts⟩⟩⟩
    · exact Nat.zero_le _
    · exact Nat.le_succ 1
    · exact Nat.le_refl 2
    · simp [Text.joinWith] at memberless

theorem unfold_eq_some {t : Tracer} {head : Text} {piece : List Text}
    (unfolds : t.unfolding.unfold head = some piece) :
    (∃ target, t.aliases.get? head = some target ∧ piece = segments target.resolved) ∨
      (globalObjects.contains head = true ∧ piece = []) := by
  simp only [unfolding] at unfolds
  split at unfolds
  · cases unfolds
  · split at unfolds
    · rename_i target found
      exact .inl ⟨target, found, (Option.some.inj unfolds).symm⟩
    · split at unfolds
      · rename_i global
        exact .inr ⟨global, (Option.some.inj unfolds).symm⟩
      · cases unfolds

theorem unfold_length_le {t : Tracer} {head : Text} {piece : List Text}
    (unfolds : t.unfolding.unfold head = some piece) : piece.length ≤ t.longestTarget := by
  rcases unfold_eq_some unfolds with ⟨target, found, rfl⟩ | ⟨-, rfl⟩
  · rw [length_segments]
    exact le_foldl_max 1 (List.mem_map_of_mem (f := fun entry => segmentCount entry.2.resolved)
      (Bindings.mem_of_get? found))
  · exact Nat.zero_le _

theorem unfold_mem_keys {t : Tracer} {head : Text} {piece : List Text}
    (unfolds : t.unfolding.unfold head = some piece) (several : 2 ≤ piece.length) :
    head ∈ t.aliases.entries.map Prod.fst := by
  rcases unfold_eq_some unfolds with ⟨target, found, -⟩ | ⟨-, rfl⟩
  · exact List.mem_map_of_mem (f := Prod.fst) (Bindings.mem_of_get? found)
  · simp at several

/-- A step between words is a step between names. -/
theorem exists_renames_of_next {t : Tracer} {name : Text} {word : List Text}
    (step : t.unfolding.Next (segments name) word) :
    ∃ other, segments other = word ∧ t.Renames name other := by
  obtain ⟨split, -, -⟩ := segments_cut name
  have unfolds := step
  rw [split, Unfolding.Next, Unfolding.next_cons_eq_some] at unfolds
  obtain ⟨moves, piece, unfolds, rfl⟩ := unfolds
  have members : (segments name).tail ≠ [] := by
    intro none
    simp [unfolding, none, Text.joinWith] at moves
  have free : ∀ part ∈ piece ++ (segments name).tail, CodePoint.ofChar '.' ∉ part := by
    intro part member
    rcases List.mem_append.1 member with member | member
    · rcases unfold_eq_some unfolds with ⟨target, -, rfl⟩ | ⟨-, rfl⟩
      · exact not_mem_of_mem_segments member
      · cases member
    · exact not_mem_of_mem_segments (List.mem_of_mem_tail member)
  have parts := segments_joinWith (List.append_ne_nil_of_right_ne_nil piece members) free
  exact ⟨_, parts, (move_eq_rename_iff t name _).2 (by rwa [parts])⟩

theorem exists_leads_of_next {t : Tracer} (name : Text) {word : List Text}
    (leads : Relation.TransGen t.unfolding.Next (segments name) word) :
    ∃ other, segments other = word ∧ Relation.TransGen t.Renames name other := by
  induction leads with
  | single step =>
      obtain ⟨new, rfl, renamed⟩ := exists_renames_of_next step
      exact ⟨new, rfl, .single renamed⟩
  | tail _ step ih =>
      obtain ⟨middle, rfl, leads⟩ := ih
      obtain ⟨new, rfl, renamed⟩ := exists_renames_of_next step
      exact ⟨new, rfl, .tail leads renamed⟩

/-- A first letter that comes back with a growth, as a name. -/
theorem regrows_of_words {t : Tracer} {head : Text} {growth : List Text}
    (headName : segments head = [head])
    (growthName : segments (Text.joinWith '.' growth) = growth)
    (again : ∀ rest, t.longestKey ≤ segmentCount rest →
      Relation.TransGen t.unfolding.Next (head :: segments rest)
        (head :: (growth ++ segments rest))) :
    t.Regrows head (Text.joinWith '.' growth) := by
  intro rest long
  obtain ⟨other, parts, renames⟩ := exists_leads_of_next (dot head rest) (by
    rw [segments_dot, headName, List.singleton_append]
    exact again rest long)
  have same : other = dot (dot head (Text.joinWith '.' growth)) rest := by
    apply segments_injective
    rw [parts, segments_dot, segments_dot, headName, growthName]
    simp
  rwa [same] at renames

/-- A name that leads to one beyond the limit leads to one whose first segment regrows. -/
theorem regrowth_of_long {t : Tracer} {name other : Text}
    (leads : Relation.ReflTransGen t.Renames name other)
    (long : t.lengthLimit name < segmentCount other) : t.Regrowth name := by
  obtain ⟨y, n, start, stop, steps, reach⟩ := Unfolding.exists_trail leads
  have trail : t.unfolding.Trail (fun i => segments (y i)) n := fun i hi =>
    (move_eq_rename_iff t (y i) (y (i + 1))).1 (steps i hi)
  have deep : max (segmentCount name) t.longestKey +
      ((t.aliases.entries.map Prod.fst).length + 1) * t.longestTarget <
        (segments (y n)).length := by
    refine lt_of_le_of_lt ?_ (by rwa [← length_segments, ← stop] at long)
    rw [lengthLimit, List.length_map]
    exact Nat.add_le_add_left (Nat.mul_le_mul_right _ (Nat.le_succ _)) _
  obtain ⟨i, j, head, growth, rest, order, last, first, second, grows, enough, above⟩ :=
    Unfolding.exists_regrowth trail _ (fun _ _ => unfold_length_le) (fun _ _ => unfold_mem_keys)
      (by rw [start, length_segments]; exact Nat.le_max_left _ _) deep
  -- the words of the regrowth as names
  have free : ∀ part ∈ head :: (growth ++ rest), CodePoint.ofChar '.' ∉ part := by
    intro part member
    rw [← second] at member
    exact not_mem_of_mem_segments member
  have headName : segments head = [head] := segments_of_not_mem (free head List.mem_cons_self)
  have growthName : segments (Text.joinWith '.' growth) = growth :=
    segments_joinWith grows fun part member => free part (by simp [member])
  have key : t.longestKey ≤ rest.length := (Nat.le_max_right _ _).trans enough
  have restName : segments (Text.joinWith '.' rest) = rest := by
    refine segments_joinWith (fun none => ?_) fun part member => free part (by simp [member])
    rw [none, List.length_nil] at key
    exact absurd (Nat.le_trans (init_le_foldl_max 2 _) key) (by decide)
  refine ⟨head, Text.joinWith '.' growth, Text.joinWith '.' rest, ?_, ?_, ?_⟩
  · refine regrows_of_words headName growthName fun rest' long' => ?_
    rw [← length_segments] at long'
    exact Unfolding.regrows_above (trail.mono last) order first second above
      (segments rest') fun word settles => (settlesBelow_longestKey t word settles).trans long'
  · rwa [← length_segments, restName]
  · have here : y i = dot head (Text.joinWith '.' rest) := by
      apply segments_injective
      rw [first, segments_dot, headName, restName, List.singleton_append]
    rw [← here]
    exact reach i (by omega)

/-! ## The limits of the lookup -/

def letters (t : Tracer) (name : Text) : List Text :=
  segments name ++ t.aliases.entries.flatMap fun entry => segments entry.2.resolved

theorem length_letters (t : Tracer) (name : Text) :
    (t.letters name).length = t.alphabetSize name := by
  rw [letters, alphabetSize, List.length_append, length_segments, List.length_flatMap,
    ← List.sum_eq_foldl_nat]
  simp only [length_segments]

theorem follow_succ (t : Tracer) (limit fuel : Nat) (seen : List Text) (name : Text) :
    t.follow limit (fuel + 1) seen name =
      if seen.contains name then .ok none
      else if limit < segmentCount name then .error .endlessAlias
      else match t.move name with
        | .found target => .ok (some target)
        | .untraced => .ok none
        | .rename next => t.follow limit fuel (name :: seen) next := rfl

/-- What is answered within the limits is what the loop answers. -/
theorem loop_of_follow {t : Tracer} {limit fuel : Nat} {seen : List Text} {name : Text}
    {answer : Option Traced} (followed : t.follow limit fuel seen name = .ok answer) :
    t.loop fuel seen name = some answer := by
  induction fuel generalizing seen name with
  | zero => simp [follow] at followed
  | succ fuel ih =>
      rw [follow_succ] at followed
      rw [loop_succ]
      by_cases back : seen.contains name = true
      · rw [if_pos back] at followed ⊢
        rw [Except.ok.inj followed]
      · rw [if_neg back] at followed ⊢
        split at followed
        · cases followed
        · cases moved : t.move name with
          | found target =>
              simp only [moved] at followed ⊢
              rw [Except.ok.inj followed]
          | untraced =>
              simp only [moved] at followed ⊢
              rw [Except.ok.inj followed]
          | rename next =>
              simp only [moved] at followed ⊢
              exact ih followed

/-- There are only so many names of at most `limit` segments. -/
theorem length_le_of_spelled (alphabet : List Text) {limit : Nat} {names : List Text}
    (distinct : names.Nodup) (short : ∀ name ∈ names, segmentCount name ≤ limit)
    (spelled : ∀ name ∈ names, segments name ⊆ alphabet) :
    names.length ≤ (alphabet.length + 1) ^ limit := by
  have few := Unfolding.length_le_of_nodup alphabet limit (distinct.map segments_injective)
    (by
      intro word member
      obtain ⟨name, inside, rfl⟩ := List.mem_map.1 member
      rw [length_segments]
      exact short name inside)
    (by
      intro word member
      obtain ⟨name, inside, rfl⟩ := List.mem_map.1 member
      exact spelled name inside)
  rwa [List.length_map] at few

/-- What a name is renamed to is spelled with the letters of the name and of the targets. -/
theorem spelled_of_renames {t : Tracer} {alphabet : List Text} {name other : Text}
    (closed : ∀ head piece, t.unfolding.unfold head = some piece → piece ⊆ alphabet)
    (renamed : t.Renames name other) (spelled : segments name ⊆ alphabet) :
    segments other ⊆ alphabet := by
  obtain ⟨head, rest, piece, here, unfolds, there⟩ :=
    ((move_eq_rename_iff t name other).1 renamed).cons
  rw [there]
  refine List.append_subset.2 ⟨closed head piece unfolds, fun part member => ?_⟩
  exact spelled (here ▸ List.mem_cons_of_mem _ member)

/-- With more fuel than there are names of `limit` segments, only a name beyond the limit makes
the lookup give up. -/
theorem exists_long_of_follow {t : Tracer} (alphabet : List Text) {limit fuel : Nat}
    {seen : List Text} {name : Text} {failure : Failure}
    (followed : t.follow limit fuel seen name = .error failure)
    (distinct : seen.Nodup) (short : ∀ old ∈ seen, segmentCount old ≤ limit)
    (spelled : ∀ old ∈ name :: seen, segments old ⊆ alphabet)
    (closed : ∀ head piece, t.unfolding.unfold head = some piece → piece ⊆ alphabet)
    (room : (alphabet.length + 1) ^ limit < fuel + seen.length) :
    failure = .endlessAlias ∧
      ∃ other, Relation.ReflTransGen t.Renames name other ∧ limit < segmentCount other := by
  induction fuel generalizing seen name with
  | zero =>
      have few := length_le_of_spelled alphabet distinct short (List.forall_mem_cons.1 spelled).2
      omega
  | succ fuel ih =>
      rw [follow_succ] at followed
      by_cases back : seen.contains name = true
      · rw [if_pos back] at followed
        cases followed
      · rw [if_neg back] at followed
        split at followed
        · rename_i long
          exact ⟨(Except.error.inj followed).symm, name, .refl, long⟩
        · rename_i fits
          cases moved : t.move name with
          | found target => simp [moved] at followed
          | untraced => simp [moved] at followed
          | rename next =>
              simp only [moved] at followed
              have fresh : name ∉ seen := fun member => back (List.contains_iff_mem.2 member)
              have here := spelled name List.mem_cons_self
              obtain ⟨same, other, leads, long⟩ := ih followed
                (List.nodup_cons.2 ⟨fresh, distinct⟩)
                (List.forall_mem_cons.2 ⟨Nat.le_of_not_lt fits, short⟩)
                (List.forall_mem_cons.2 ⟨spelled_of_renames closed moved here, spelled⟩)
                (by simp only [List.length_cons]; omega)
              exact ⟨same, other, .head moved leads, long⟩

/-- What a segment unfolds to is spelled with these letters. -/
theorem unfold_subset_letters {t : Tracer} (name : Text) {head : Text} {piece : List Text}
    (unfolds : t.unfolding.unfold head = some piece) : piece ⊆ t.letters name := by
  intro part member
  rcases unfold_eq_some unfolds with ⟨target, found, rfl⟩ | ⟨-, rfl⟩
  · exact List.mem_append_right _ (List.mem_flatMap.2 ⟨_, Bindings.mem_of_get? found, member⟩)
  · cases member

/-- A lookup that gives up has met a regrowing segment. -/
theorem regrowth_of_lookup {t : Tracer} {name : Text} {failure : Failure}
    (failed : t.lookup name = .error failure) :
    failure = .endlessAlias ∧ t.Regrowth name := by
  rw [lookup] at failed
  split at failed
  · cases failed
  · obtain ⟨same, other, leads, long⟩ := exists_long_of_follow (t.letters name) failed
      List.nodup_nil (fun old member => absurd member List.not_mem_nil) (by simp [letters])
      (fun head piece => unfold_subset_letters name) (by rw [length_letters, stepLimit]; simp)
    exact ⟨same, regrowth_of_long leads long⟩

theorem answers_of_lookup {t : Tracer} {name : Text} {answer : Option Traced} (some : name ≠ [])
    (found : t.lookup name = .ok answer) : t.Answers name answer := by
  rw [lookup, if_neg some] at found
  exact ⟨_, loop_of_follow found⟩

/-- Nothing stands before a dot in the empty name, so it is not renamed. -/
theorem exits_nil (t : Tracer) : t.Exits [] := by
  cases moved : t.move [] with
  | found target => exact ⟨some target, 1, by rw [loop_succ]; simp [moved]⟩
  | untraced => exact ⟨none, 1, by rw [loop_succ]; simp [moved]⟩
  | rename next =>
      have settled := (move_eq_rename_iff t [] next).1 moved
      rw [segments_of_not_mem List.not_mem_nil, Unfolding.Next, Unfolding.next_cons_eq_some]
        at settled
      simp [unfolding, Text.joinWith] at settled

theorem exits_of_lookup {t : Tracer} {name : Text} {answer : Option Traced}
    (found : t.lookup name = .ok answer) : t.Exits name := by
  by_cases none : name = []
  · rw [none]
    exact exits_nil t
  · exact ⟨answer, answers_of_lookup none found⟩

/-- **The loop ends unless a segment regrows**, and the limits of the lookup are exact: it
answers what the loop answers, and it gives up on a name exactly when the loop never ends. -/
theorem exits_iff_not_regrowth (t : Tracer) (name : Text) :
    (t.Exits name ↔ ¬ t.Regrowth name) ∧
      (t.lookup name = .error .endlessAlias ↔ ¬ t.Exits name) ∧
        (name ≠ [] → ∀ answer, t.lookup name = .ok answer ↔ t.Answers name answer) := by
  cases looked : t.lookup name with
  | ok answer =>
      have exits := exits_of_lookup looked
      refine ⟨⟨fun _ regrowth => regrowth.not_exits exits, fun _ => exits⟩, ?_, ?_⟩
      · exact ⟨fun h => (nomatch h), fun h => absurd exits h⟩
      · intro some other
        have answers := answers_of_lookup some looked
        exact ⟨fun same => Except.ok.inj same ▸ answers,
          fun answers' => by rw [answers.unique answers']⟩
  | error failure =>
      obtain ⟨rfl, regrowth⟩ := regrowth_of_lookup looked
      have endless := regrowth.not_exits
      refine ⟨⟨fun exits => absurd exits endless, fun h => absurd regrowth h⟩, ?_, ?_⟩
      · exact ⟨fun _ => endless, fun _ => rfl⟩
      · intro _ answer
        exact ⟨fun h => (nomatch h), fun answers => absurd ⟨answer, answers⟩ endless⟩

/-! ## A program that regrows a segment -/

/-- The states that observing expressions leads to from the start of a pass. -/
inductive Reachable : Tracer → Prop
  | start : Reachable .default
  | observe {t t' : Tracer} (e : Expr) (reached : Reachable t) (observed : t.observe e = .ok t') :
      Reachable t'

/-- `const { posix: path } = require("path")`. -/
def posixAsPath : Expr :=
  .definition .unknown (.pattern .unknown [⟨"posix", "path"⟩])
    (.call .unknown (.identifier .unknown "require") [.string .unknown "path"])

def withPosixAsPath : Tracer :=
  { Tracer.default with aliases := ⟨[("path", ⟨"path.posix", "path.posix"⟩)]⟩ }

/-- In that state following `path.join` never ends. -/
theorem posixAsPath_endless :
    Tracer.default.observe posixAsPath = .ok withPosixAsPath ∧ Reachable withPosixAsPath ∧
      ¬ withPosixAsPath.Exits "path.join" := by
  have observed : Tracer.default.observe posixAsPath = .ok withPosixAsPath := rfl
  have failed : withPosixAsPath.lookup "path.join" = .error .endlessAlias := rfl
  exact ⟨observed, .observe posixAsPath .start observed, (regrowth_of_lookup failed).2.not_exits⟩

end Tracer

end HiddenLoads
