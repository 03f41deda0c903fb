/-
# HiddenLoads.Proofs.StepwisePaths -- a path may be joined in steps

A path in normal form is read as the segments that it was written from: none of them is left out and
none goes back (`Join.foldl_push_normal`), and neither the slashes around them nor the sign for no
segments at all add anything (`Join.segments_framed`).  So what a first joining leaves of its parts
takes their place in a second one, whatever parts follow (`Join.path_in_steps`).

That needs a first part that is not empty.  From nothing a first joining makes the sign for the
place where one is, and a path that follows it can no longer begin at the root.
-/
import HiddenLoads.Proofs.NormalPaths

namespace HiddenLoads

set_option autoImplicit false

namespace Join

open Text

/-! ## Reading a normal form -/

/-- Going up behind nothing but segments that go up leaves them all. -/
theorem push_up_of_all {path : List Text} (all : ∀ s ∈ path, s = up) :
    push false path up = up :: path := by
  cases path with
  | nil => exact push_up_nil false
  | cons last before => rw [push_up_cons, if_pos (all last List.mem_cons_self)]

/-- A segment of a normal form is kept when what stands before it has been. -/
theorem push_of_normal {absolute : Bool} {path rest : List Text} {s : Text}
    (normal : Normal absolute (path.reverse ++ s :: rest)) : push absolute path s = s :: path := by
  have inside : s ∈ path.reverse ++ s :: rest := by simp
  by_cases isUp : s = up
  · subst isUp
    have isRelative : absolute = false :=
      Bool.eq_false_iff.2 fun isAbsolute => normal.relative isAbsolute inside
    subst isRelative
    refine push_up_of_all fun earlier before => ?_
    exact (List.pairwise_append.1 normal.run).2.2 earlier (List.mem_reverse.2 before) up
      List.mem_cons_self rfl
  · exact push_name ⟨normal.full s inside, normal.notHere s inside, isUp⟩

theorem foldl_push_normal {absolute : Bool} (segs : List Text) {path : List Text}
    (normal : Normal absolute (path.reverse ++ segs)) :
    segs.foldl (push absolute) path = segs.reverse ++ path := by
  induction segs generalizing path with
  | nil => rfl
  | cons s segs ih =>
      rw [List.foldl_cons, push_of_normal normal, ih (by simpa using normal)]
      simp

/-- The stem of a normal form splits into its segments, or into one piece that is passed over. -/
theorem foldl_push_stem {absolute : Bool} {segs : List Text} (normal : Normal absolute segs) :
    (splitOn slash (stem absolute segs)).foldl (push absolute) [] = segs.reverse := by
  by_cases none : segs = []
  · subst none
    cases absolute <;> decide
  · rw [stem, if_neg fun both => none both.2, splitOn_joinWith_of_free none normal.whole,
      foldl_push_normal segs normal, List.append_nil]

/-- The slashes around a stem are passed over as well. -/
theorem segments_framed {absolute : Bool} (closed : Bool) {segs : List Text}
    (normal : Normal absolute segs) :
    segments absolute (framed absolute closed (stem absolute segs)) = segs := by
  have behind (t : Text) : (splitOn slash (t ++ if closed then [slash] else [])).foldl
      (push absolute) [] = (splitOn slash t).foldl (push absolute) [] := by
    cases closed with
    | false => simp
    | true =>
        rw [if_pos rfl, splitOn_append, List.foldl_append]
        rfl
  have before (t : Text) : (splitOn slash ((if absolute then [slash] else []) ++ t)).foldl
      (push absolute) [] = (splitOn slash t).foldl (push absolute) [] := by
    cases absolute <;> rfl
  rw [segments, framed, before, behind, foldl_push_stem normal, List.reverse_reverse]

/-! ## Parts in a row -/

theorem given_append (xs ys : List Text) : given (xs ++ ys) = given xs ++ given ys :=
  List.filter_append xs ys

theorem given_cons {x : Text} (full : x ≠ []) (ys : List Text) : given (x :: ys) = x :: given ys :=
  List.filter_cons_of_pos (decide_eq_true full)

theorem given_ne_nil_iff (xs : List Text) : given xs ≠ [] ↔ ∃ x ∈ xs, x ≠ [] := by
  simp [given]

/-- Parts are read one after the other. -/
theorem segments_joinWith (absolute : Bool) (parts : List Text) :
    segments absolute (joinWith slash parts) =
      ((parts.flatMap (splitOn slash)).foldl (push absolute) []).reverse := by
  by_cases none : parts = []
  · rw [none]
    rfl
  · rw [segments, splitOn_joinWith slash none]

/-- The segments of more parts depend on the first ones only through their own segments. -/
theorem segments_joinWith_congr {absolute : Bool} {xs xs' : List Text}
    (same : segments absolute (joinWith slash xs) = segments absolute (joinWith slash xs'))
    (ys : List Text) :
    segments absolute (joinWith slash (xs ++ ys)) =
      segments absolute (joinWith slash (xs' ++ ys)) := by
  rw [segments_joinWith, segments_joinWith, List.reverse_inj] at same
  rw [segments_joinWith, segments_joinWith, List.flatMap_append, List.flatMap_append,
    List.foldl_append, List.foldl_append, same]

theorem beginsIn_joinWith_append {xs ys : List Text} (some : xs ≠ [])
    (full : ∀ part ∈ xs ++ ys, part ≠ []) :
    (joinWith slash (xs ++ ys)).beginsIn slash = (joinWith slash xs).beginsIn slash := by
  have fullXs : ∀ part ∈ xs, part ≠ [] := (List.forall_mem_append.1 full).1
  rw [beginsIn, beginsIn, head?_joinWith full, head?_joinWith fullXs, List.head?_append,
    Option.or_of_isSome (List.isSome_head?.2 some)]

theorem endsIn_joinWith_append {xs ys : List Text} (some : ys ≠ [])
    (full : ∀ part ∈ xs ++ ys, part ≠ []) :
    (joinWith slash (xs ++ ys)).endsIn slash = (joinWith slash ys).endsIn slash := by
  have fullYs : ∀ part ∈ ys, part ≠ [] := (List.forall_mem_append.1 full).2
  rw [endsIn, endsIn, getLast?_joinWith full, getLast?_joinWith fullYs, List.getLast?_append,
    Option.or_of_isSome (List.getLast?_isSome.2 some)]

/-! ## Joining in steps -/

/-- Joined paths are the same if their parts begin alike, leave the same segments and, unless only
the root is left, end alike. -/
theorem path_congr {parts parts' : List Text} {t t' : Text} {absolute : Bool}
    (joined : joinWith slash (given parts) = t) (joined' : joinWith slash (given parts') = t')
    (begins : t.beginsIn slash = absolute) (begins' : t'.beginsIn slash = absolute)
    (same : segments absolute t = segments absolute t')
    (ends : stem absolute (segments absolute t') ≠ [] → t.endsIn slash = t'.endsIn slash) :
    path parts = path parts' := by
  rw [path_eq_framed joined begins, path_eq_framed joined' begins', same]
  by_cases root : stem absolute (segments absolute t') = []
  · simp [root]
  · rw [ends root]

/-- A joined path begins as its parts do, leaves their segments and, unless it is the root, ends as
they do. -/
theorem path_keeps {parts : List Text} {t : Text} (joined : joinWith slash (given parts) = t)
    {absolute : Bool} (begins : t.beginsIn slash = absolute) :
    path parts ≠ [] ∧ (path parts).beginsIn slash = absolute ∧
      segments absolute (path parts) = segments absolute t ∧
      (stem absolute (segments absolute t) ≠ [] →
        (path parts).endsIn slash = t.endsIn slash) := by
  have normal := (segments_normal absolute t).1
  have isStem : IsStem absolute (t.endsIn slash && !decide (stem absolute (segments absolute t) = []))
      (stem absolute (segments absolute t)) := stem_isStem normal fun root => by simp [root]
  rw [path_eq_framed joined begins]
  refine ⟨isStem.framed_ne_nil, isStem.beginsIn_framed, segments_framed _ normal, fun proper => ?_⟩
  rw [Bool.eq_iff_iff, isStem.endsIn_framed]
  simp [proper]

/-- What a first joining leaves of its parts takes their place in a second one. -/
theorem path_path_append {xs : List Text} (some : given xs ≠ []) (ys : List Text) :
    path (path xs :: ys) = path (xs ++ ys) := by
  obtain ⟨t, joined⟩ : ∃ t, joinWith slash (given xs) = t := ⟨_, rfl⟩
  obtain ⟨absolute, begins⟩ : ∃ absolute, t.beginsIn slash = absolute := ⟨_, rfl⟩
  obtain ⟨full, first, kept, closes⟩ := path_keeps joined begins
  have left : given (path xs :: ys) = [path xs] ++ given ys := given_cons full ys
  have right : given (xs ++ ys) = given xs ++ given ys := given_append xs ys
  have fullLeft := left ▸ given_full (path xs :: ys)
  have fullRight := right ▸ given_full (xs ++ ys)
  refine path_congr (congrArg (joinWith slash) left) (congrArg (joinWith slash) right)
    ?_ ?_ (segments_joinWith_congr (joined ▸ kept) (given ys)) fun proper => ?_
  · rw [beginsIn_joinWith_append (List.cons_ne_nil _ _) fullLeft]
    exact first
  · rw [beginsIn_joinWith_append some fullRight, joined, begins]
  · -- Behind further parts both rows end as those do; else the first is the joined path alone.
    by_cases none : given ys = []
    · rw [none, List.append_nil, joined] at proper
      rw [none, List.append_nil, List.append_nil, joined]
      exact closes proper
    · rw [endsIn_joinWith_append none fullLeft, endsIn_joinWith_append none fullRight]

/-- Empty parts make no difference. -/
theorem path_of_given {parts parts' : List Text} (same : given parts = given parts') :
    path parts = path parts' :=
  path_congr (congrArg (joinWith slash) same) rfl rfl rfl rfl fun _ => rfl

/-- **A path may be joined in steps** exactly if some part of the first step is not empty, and what
has been joined once stays as it is. -/
theorem path_in_steps (xs : List Text) :
    ((∀ ys, path (path xs :: ys) = path (xs ++ ys)) ↔ ∃ x ∈ xs, x ≠ []) ∧
      path [path xs] = path xs := by
  by_cases none : given xs = []
  · have isHere : path xs = path [] := path_of_given none
    refine ⟨iff_of_false (fun steps => ?_) fun some => (given_ne_nil_iff xs).2 some none, ?_⟩
    · -- A slash alone begins at the root, but not behind the sign for the place where one is.
      have alone : path (xs ++ [[slash]]) = path [[slash]] :=
        path_of_given (by rw [given_append, none, List.nil_append])
      have differ : path [path [], [slash]] ≠ path [[slash]] := by decide
      rw [← alone, ← isHere] at differ
      exact differ (steps [[slash]])
    · rw [isHere]
      decide
  · refine ⟨iff_of_true (path_path_append none) ((given_ne_nil_iff xs).1 none), ?_⟩
    rw [path_path_append none, List.append_nil]

end Join

end HiddenLoads
