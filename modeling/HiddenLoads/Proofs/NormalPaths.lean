/-
# HiddenLoads.Proofs.NormalPaths -- joined paths are in normal form

A path is simplified lexically: segments that are empty or stay are left out, one that goes up takes
the segment before it along, and above the root there is nothing to go up to (`Join.Simplifies`).
The segments that are kept while a path is read have gone through such steps, and no step applies to
them any more: what goes up stands in front, and nowhere in an absolute path (`Join.Normal`).  One
segment keeps both (`Join.push_cases`), so all of them do (`Join.foldl_push`).

A joined path is then a stem, which neither begins nor ends in a slash, with a slash in front if the
first part begins in one and a slash behind it if the last part ends in one
(`Join.path_eq_framed`).  Only the root has no stem.
-/
import HiddenLoads.Path.Join
import HiddenLoads.Proofs.Splitting
import Mathlib.Logic.Relation

namespace HiddenLoads

set_option autoImplicit false

namespace Join

open Text

/-! ## Segments -/

/-- The segment is a name: not empty, and neither of the two with a meaning of their own. -/
structure IsName (segment : Text) : Prop where
  full : segment ≠ []
  notHere : segment ≠ here
  notUp : segment ≠ up

inductive Simplifies (absolute : Bool) : List Text → List Text → Prop
  | empty (before after : List Text) :
      Simplifies absolute (before ++ [] :: after) (before ++ after)
  | stay (before after : List Text) :
      Simplifies absolute (before ++ here :: after) (before ++ after)
  | back {name : Text} (isName : IsName name) (before after : List Text) :
      Simplifies absolute (before ++ name :: up :: after) (before ++ after)
  | top (isAbsolute : absolute = true) (after : List Text) : Simplifies absolute (up :: after) after

abbrev Resolves (absolute : Bool) : List Text → List Text → Prop :=
  Relation.ReflTransGen (Simplifies absolute)

/-- No segment is empty, stays or has a slash, and one that goes up stands behind others of its kind
only, and in no absolute path. -/
structure Normal (absolute : Bool) (segments : List Text) : Prop where
  full : ∀ s ∈ segments, s ≠ []
  notHere : ∀ s ∈ segments, s ≠ here
  whole : ∀ s ∈ segments, slash ∉ s
  run : segments.Pairwise fun earlier later => later = up → earlier = up
  relative : absolute = true → up ∉ segments

theorem normal_nil (absolute : Bool) : Normal absolute [] where
  full := List.forall_mem_nil _
  notHere := List.forall_mem_nil _
  whole := List.forall_mem_nil _
  run := List.Pairwise.nil
  relative := fun _ => List.not_mem_nil

theorem Normal.of_concat {absolute : Bool} {segments : List Text} {s : Text}
    (normal : Normal absolute (segments ++ [s])) : Normal absolute segments where
  full := (List.forall_mem_append.1 normal.full).1
  notHere := (List.forall_mem_append.1 normal.notHere).1
  whole := (List.forall_mem_append.1 normal.whole).1
  run := (List.pairwise_append.1 normal.run).1
  relative isAbsolute inside := normal.relative isAbsolute (List.mem_append_left _ inside)

/-- One more segment, which goes up only behind others that do. -/
theorem Normal.concat {absolute : Bool} {segments : List Text} (normal : Normal absolute segments)
    {s : Text} (full : s ≠ []) (notHere : s ≠ here) (whole : slash ∉ s)
    (last : s = up → absolute = false ∧ ∀ earlier ∈ segments, earlier = up) :
    Normal absolute (segments ++ [s]) where
  full := List.forall_mem_append.2 ⟨normal.full, List.forall_mem_singleton.2 full⟩
  notHere := List.forall_mem_append.2 ⟨normal.notHere, List.forall_mem_singleton.2 notHere⟩
  whole := List.forall_mem_append.2 ⟨normal.whole, List.forall_mem_singleton.2 whole⟩
  run := by
    refine List.pairwise_append.2 ⟨normal.run, List.pairwise_singleton _ _, ?_⟩
    intro earlier inside later isLast isUp
    rw [List.mem_singleton.1 isLast] at isUp
    exact (last isUp).2 earlier inside
  relative := by
    intro isAbsolute inside
    rcases List.mem_append.1 inside with inside | inside
    · exact normal.relative isAbsolute inside
    · have relative := (last (List.mem_singleton.1 inside).symm).1
      rw [isAbsolute] at relative
      cases relative

theorem push_idle {absolute : Bool} {path : List Text} {segment : Text}
    (idle : segment = [] ∨ segment = here) : push absolute path segment = path :=
  if_pos idle

theorem push_name {absolute : Bool} {path : List Text} {segment : Text} (isName : IsName segment) :
    push absolute path segment = segment :: path := by
  unfold push
  rw [if_neg (not_or.2 ⟨isName.full, isName.notHere⟩), if_pos isName.notUp]

theorem up_proper : up ≠ [] ∧ up ≠ here ∧ slash ∉ up := by decide

theorem push_up_nil (absolute : Bool) :
    push absolute [] up = if absolute then [] else [up] := by
  unfold push
  rw [if_neg (not_or.2 ⟨up_proper.1, up_proper.2.1⟩), if_neg fun other => other rfl]

theorem push_up_cons (absolute : Bool) (last : Text) (before : List Text) :
    push absolute (last :: before) up = if last = up then up :: last :: before else before := by
  unfold push
  rw [if_neg (not_or.2 ⟨up_proper.1, up_proper.2.1⟩), if_neg fun other => other rfl]

/-- Going up from what is left keeps the normal form, and is a simplification or none. -/
theorem push_up_cases (absolute : Bool) {path : List Text} (normal : Normal absolute path.reverse) :
    Normal absolute (push absolute path up).reverse ∧ ∀ rest : List Text,
      Resolves absolute (path.reverse ++ up :: rest) ((push absolute path up).reverse ++ rest) := by
  obtain ⟨full, notHere, whole⟩ := up_proper
  cases path with
  | nil =>
      rw [push_up_nil]
      cases absolute with
      | true => exact ⟨normal_nil true, fun rest => .single (.top rfl rest)⟩
      | false =>
          exact ⟨normal.concat full notHere whole fun _ => ⟨rfl, List.forall_mem_nil _⟩,
            fun rest => .refl⟩
  | cons last before =>
      rw [push_up_cons]
      rw [List.reverse_cons] at normal ⊢
      by_cases lastUp : last = up
      · -- Everything before goes up as well, so there is nothing to go back from.
        subst lastUp
        have others := (List.pairwise_append.1 normal.run).2.2
        have isRelative : absolute = false :=
          Bool.eq_false_iff.2 fun isAbsolute => normal.relative isAbsolute (by simp)
        simp only [if_true, List.reverse_cons]
        refine ⟨normal.concat full notHere whole fun _ => ⟨isRelative, ?_⟩, fun rest => ?_⟩
        · intro earlier inside
          rcases List.mem_append.1 inside with inside | inside
          · exact others earlier inside up (List.mem_singleton_self _) rfl
          · exact List.mem_singleton.1 inside
        · rw [List.append_assoc _ [up] rest]
          exact .refl
      · have isName : IsName last :=
          ⟨normal.full last (by simp), normal.notHere last (by simp), lastUp⟩
        simp only [if_neg lastUp]
        refine ⟨normal.of_concat, fun rest => ?_⟩
        rw [List.append_assoc]
        exact .single (.back isName _ rest)

/-- Reading one more segment keeps the normal form, and is a simplification or none. -/
theorem push_cases (absolute : Bool) {path : List Text} {segment : Text}
    (normal : Normal absolute path.reverse) (whole : slash ∉ segment) :
    Normal absolute (push absolute path segment).reverse ∧ ∀ rest : List Text,
      Resolves absolute (path.reverse ++ segment :: rest)
        ((push absolute path segment).reverse ++ rest) := by
  by_cases isEmpty : segment = []
  · rw [push_idle (Or.inl isEmpty), isEmpty]
    exact ⟨normal, fun rest => .single (.empty _ rest)⟩
  by_cases isHere : segment = here
  · rw [push_idle (Or.inr isHere), isHere]
    exact ⟨normal, fun rest => .single (.stay _ rest)⟩
  by_cases isUp : segment = up
  · subst isUp
    exact push_up_cases absolute normal
  · rw [push_name ⟨isEmpty, isHere, isUp⟩, List.reverse_cons]
    refine ⟨normal.concat isEmpty isHere whole fun same => absurd same isUp, fun rest => ?_⟩
    rw [List.append_assoc]
    exact .refl

/-- Reading any number of segments simplifies them to a normal form. -/
theorem foldl_push (absolute : Bool) (pieces : List Text) (whole : ∀ s ∈ pieces, slash ∉ s)
    {path : List Text} (normal : Normal absolute path.reverse) :
    Normal absolute (pieces.foldl (push absolute) path).reverse ∧
      Resolves absolute (path.reverse ++ pieces) (pieces.foldl (push absolute) path).reverse := by
  induction pieces generalizing path with
  | nil =>
      rw [List.foldl_nil, List.append_nil]
      exact ⟨normal, .refl⟩
  | cons segment pieces ih =>
      obtain ⟨first, others⟩ := List.forall_mem_cons.1 whole
      obtain ⟨keeps, steps⟩ := push_cases absolute normal first
      obtain ⟨ends, resolves⟩ := ih others keeps
      exact ⟨ends, (steps pieces).trans resolves⟩

theorem segments_normal (absolute : Bool) (t : Text) :
    Normal absolute (segments absolute t) ∧
      Resolves absolute (t.splitOn slash) (segments absolute t) :=
  foldl_push absolute _ (fun _ => not_mem_of_mem_splitOn) (normal_nil absolute)

/-! ## Slashes -/

/-- A text without one slash in front and one behind. -/
def bare (t : Text) : Text :=
  let rest : Text := if t.beginsIn slash then t.tail else t
  if rest.endsIn slash then rest.dropLast else rest

/-- A text with a slash in front or behind. -/
def framed (absolute closed : Bool) (t : Text) : Text :=
  (if absolute then [slash] else []) ++ (t ++ if closed then [slash] else [])

/-- The text has no slash of its own at its ends, and is empty only at the root. -/
structure IsStem (absolute closed : Bool) (t : Text) : Prop where
  first : t.head? ≠ some slash
  last : t.getLast? ≠ some slash
  root : t = [] → absolute = true ∧ closed = false

section Framed

variable {absolute closed : Bool} {t : Text}

theorem IsStem.framed_ne_nil (isStem : IsStem absolute closed t) :
    framed absolute closed t ≠ [] := by
  intro none
  simp only [framed, List.append_eq_nil_iff] at none
  rw [(isStem.root none.2.1).1] at none
  cases none.1

theorem IsStem.beginsIn_framed (isStem : IsStem absolute closed t) :
    (framed absolute closed t).beginsIn slash = absolute := by
  cases absolute with
  | true => simp [framed, beginsIn]
  | false =>
      cases t with
      | nil => cases (isStem.root rfl).1
      | cons c t =>
          have other : c ≠ slash := fun same => isStem.first (congrArg some same)
          simp [framed, beginsIn, other]

theorem IsStem.not_doubled (isStem : IsStem absolute closed t) :
    ¬ [slash, slash] <+: framed absolute closed t := by
  rintro ⟨rest, doubled⟩
  cases t with
  | nil =>
      obtain ⟨rfl, rfl⟩ := isStem.root rfl
      simp [framed] at doubled
  | cons c t =>
      have other : c ≠ slash := fun same => isStem.first (congrArg some same)
      cases absolute <;> simp [framed, Ne.symm other] at doubled

theorem IsStem.endsIn_eq_false (isStem : IsStem absolute closed t) : t.endsIn slash = false :=
  beq_eq_false_iff_ne.2 isStem.last

/-- Only the root is a single slash. -/
theorem IsStem.framed_eq_slash_iff (isStem : IsStem absolute closed t) :
    framed absolute closed t = [slash] ↔ t = [] := by
  cases t with
  | nil =>
      obtain ⟨rfl, rfl⟩ := isStem.root rfl
      exact ⟨fun _ => rfl, fun _ => rfl⟩
  | cons c t =>
      have other : c ≠ slash := fun same => isStem.first (congrArg some same)
      cases absolute <;> simp [framed, other]

theorem IsStem.endsIn_framed (isStem : IsStem absolute closed t) :
    (framed absolute closed t).endsIn slash = true ↔ t = [] ∨ closed = true := by
  cases closed with
  | true => simp [framed, endsIn, ← List.append_assoc]
  | false =>
      by_cases none : t = []
      · rw [none, (isStem.root none).1]
        decide
      · have last : (framed absolute false t).getLast? = t.getLast? := by
          show (_ ++ (t ++ [])).getLast? = _
          rw [List.append_nil, List.getLast?_append,
            Option.or_of_isSome (List.getLast?_isSome.2 none)]
        rw [endsIn, last, ← endsIn, isStem.endsIn_eq_false]
        simp [none]

theorem IsStem.bare_framed (isStem : IsStem absolute closed t) :
    bare (framed absolute closed t) = t := by
  have rest : (if (framed absolute closed t).beginsIn slash then (framed absolute closed t).tail
      else framed absolute closed t) = t ++ if closed then [slash] else [] := by
    rw [isStem.beginsIn_framed]
    cases absolute <;> rfl
  simp only [bare, rest]
  cases closed with
  | true => simp [endsIn]
  | false => simp [isStem.endsIn_eq_false]

end Framed

/-! ## Joined paths -/

/-- What stands between the slashes: the segments, or the sign for a relative path without any. -/
def stem (absolute : Bool) (segments : List Text) : Text :=
  if absolute = false ∧ segments = [] then here else joinWith slash segments

theorem stem_eq_nil_iff {absolute : Bool} {segments : List Text}
    (normal : Normal absolute segments) :
    stem absolute segments = [] ↔ absolute = true ∧ segments = [] := by
  rw [stem]
  split
  case isTrue relative => simp [relative, here, ofString]
  case isFalse other =>
      rw [joinWith_eq_nil_iff normal.full]
      cases absolute <;> simp_all

/-- Segments do not begin or end in a slash, and neither does what they make up. -/
theorem stem_isStem {absolute closed : Bool} {segments : List Text}
    (normal : Normal absolute segments) (root : stem absolute segments = [] → closed = false) :
    IsStem absolute closed (stem absolute segments) := by
  refine ⟨?_, ?_, fun none => ⟨((stem_eq_nil_iff normal).1 none).1, root none⟩⟩
  · rw [stem]
    split
    case isTrue => decide
    case isFalse =>
        rw [head?_joinWith normal.full]
        intro first
        obtain ⟨s, isFirst, begins⟩ := Option.bind_eq_some_iff.1 first
        exact normal.whole s (List.mem_of_mem_head? isFirst) (List.mem_of_mem_head? begins)
  · rw [stem]
    split
    case isTrue => decide
    case isFalse =>
        rw [getLast?_joinWith normal.full]
        intro last
        obtain ⟨s, isLast, ends⟩ := Option.bind_eq_some_iff.1 last
        exact normal.whole s (List.mem_of_mem_getLast? isLast) (List.mem_of_mem_getLast? ends)

theorem singleRoot_of_not_doubled {t : Text} (single : ¬ [slash, slash] <+: t) :
    singleRoot t = t := by
  rw [singleRoot, if_neg (mt List.isPrefixOf_iff_prefix.1 single)]

theorem singleRoot_doubled {t : Text} (first : t.head? ≠ some slash) :
    singleRoot (slash :: slash :: t) = slash :: t := by
  have stays : t.dropWhile (· = slash) = t := by
    cases t with
    | nil => rfl
    | cons c t =>
        have other : c ≠ slash := fun same => first (congrArg some same)
        rw [List.dropWhile_cons_of_neg (by simpa using other)]
  simp [singleRoot, stays]

/-- Normalizing and then making one slash of those in front gives the stem of the path, with a slash
in front if the path begins in one. -/
theorem singleRoot_normalize (t : Text) :
    singleRoot (normalize t) = framed (t.beginsIn slash) false
      (stem (t.beginsIn slash) (segments (t.beginsIn slash) t)) := by
  have normal := (segments_normal (t.beginsIn slash) t).1
  cases isAbsolute : t.beginsIn slash with
  | false =>
      rw [isAbsolute] at normal
      have isStem := @stem_isStem false false _ normal fun _ => rfl
      have whole : normalize t = framed false false (stem false (segments false t)) := by
        simp [normalize, root, isAbsolute, framed, stem, joinWith_eq_nil_iff normal.full]
      rw [whole, singleRoot_of_not_doubled isStem.not_doubled]
  | true =>
      rw [isAbsolute] at normal
      have isStem := @stem_isStem true false _ normal fun _ => rfl
      have single := isStem.not_doubled
      have shape : framed true false (stem true (segments true t)) =
          slash :: stem true (segments true t) := by simp [framed]
      have rooted : root t = [slash, slash] ∨ root t = [slash] := by
        rw [root, isAbsolute, Bool.not_true, if_neg Bool.false_ne_true]
        split
        · exact .inl rfl
        · exact .inr rfl
      rw [shape] at single ⊢
      rcases rooted with isRoot | isRoot
      · have whole : normalize t = slash :: slash :: stem true (segments true t) := by
          simp [normalize, isRoot, isAbsolute, stem]
        rw [whole, singleRoot_doubled isStem.first]
      · have whole : normalize t = slash :: stem true (segments true t) := by
          simp [normalize, isRoot, isAbsolute, stem]
        rw [whole, singleRoot_of_not_doubled single]

def given (parts : List Text) : List Text := parts.filter (· ≠ [])

theorem given_full (parts : List Text) : ∀ part ∈ given parts, part ≠ [] := by
  intro part inside
  exact of_decide_eq_true (List.mem_filter.1 inside).2

theorem beginsIn_joined (parts : List Text) :
    (joinWith slash (given parts)).beginsIn slash = true ↔
      ∃ part, (given parts).head? = some part ∧ part.beginsIn slash = true := by
  simp only [beginsIn, beq_iff_eq]
  rw [head?_joinWith (given_full parts), Option.bind_eq_some_iff]

theorem endsIn_joined (parts : List Text) :
    (joinWith slash (given parts)).endsIn slash = true ↔
      ∃ part, (given parts).getLast? = some part ∧ part.endsIn slash = true := by
  simp only [endsIn, beq_iff_eq]
  rw [getLast?_joinWith (given_full parts), Option.bind_eq_some_iff]

/-- The segments of what the parts make up come from those of the parts. -/
theorem segments_joined (parts : List Text) (absolute : Bool) :
    Resolves absolute ((given parts).flatMap (splitOn slash))
      (segments absolute (joinWith slash (given parts))) := by
  by_cases none : given parts = []
  · rw [none]
    exact .refl
  · rw [← splitOn_joinWith slash none]
    exact (segments_normal absolute _).2

/-- A joined path is its stem, with a slash in front if its parts begin in one, and one behind if
they end in one and it is not the root. -/
theorem path_eq_framed {parts : List Text} {t : Text} (joined : joinWith slash (given parts) = t)
    {absolute : Bool} (begins : t.beginsIn slash = absolute) :
    path parts = framed absolute
      (t.endsIn slash && !decide (stem absolute (segments absolute t) = []))
      (stem absolute (segments absolute t)) := by
  have isStem : IsStem absolute false (stem absolute (segments absolute t)) :=
    stem_isStem (segments_normal absolute t).1 fun _ => rfl
  have reads : path parts = if t = [] then here else
      if t.endsIn slash ∧ ¬ (singleRoot (normalize t)).endsIn slash then
        singleRoot (normalize t) ++ [slash]
      else singleRoot (normalize t) := by
    rw [← joined]
    rfl
  rw [reads]
  by_cases none : t = []
  · rw [if_pos none, ← begins, none]
    rfl
  · have ends := isStem.endsIn_framed
    rw [if_neg none, singleRoot_normalize, begins]
    simp only [Bool.false_eq_true, or_false] at ends
    by_cases closes : t.endsIn slash = true ∧ stem absolute (segments absolute t) ≠ []
    · rw [if_pos ⟨closes.1, fun root => closes.2 (ends.1 root)⟩, closes.1, decide_eq_false closes.2]
      simp [framed]
    · rw [if_neg fun both => closes ⟨both.1, fun root => both.2 (ends.2 root)⟩]
      have stays : (t.endsIn slash && !decide (stem absolute (segments absolute t) = [])) =
          false := by
        simpa using closes
      rw [stays]

/-- The segments and the slashes of a joined path, without the reading that leads to them. -/
theorem exists_path_eq {parts : List Text} {t : Text} (joined : joinWith slash (given parts) = t)
    {absolute : Bool} (begins : t.beginsIn slash = absolute) :
    ∃ (closed : Bool) (segs : List Text), Normal absolute segs ∧
      Resolves absolute ((given parts).flatMap (splitOn slash)) segs ∧
      (closed = true ↔ t.endsIn slash = true ∧ stem absolute segs ≠ []) ∧
      path parts = framed absolute closed (stem absolute segs) :=
  ⟨_, _, (segments_normal absolute t).1, joined ▸ segments_joined parts absolute, by simp,
    path_eq_framed joined begins⟩

/-- A path in normal form that the parts make up. -/
structure IsNormalForm (parts : List Text) (r : Text) : Prop where
  full : r ≠ []
  begins : r.beginsIn slash = true ↔
    ∃ part, (given parts).head? = some part ∧ part.beginsIn slash = true
  single : ¬ [slash, slash] <+: r
  ends : r.endsIn slash = true ↔
    r = [slash] ∨ ∃ part, (given parts).getLast? = some part ∧ part.endsIn slash = true
  /-- Between its slashes it is the sign for a relative path without segments, nothing at the root,
  or the segments that are left of those of the parts. -/
  between : ∃ segs, Normal (r.beginsIn slash) segs ∧
    Resolves (r.beginsIn slash) ((given parts).flatMap (splitOn slash)) segs ∧
    (bare r = here ∧ segs = [] ∧ r.beginsIn slash = false ∨
      bare r = [] ∧ segs = [] ∧ r = [slash] ∨
      bare r = joinWith slash segs ∧ segs ≠ [])

/-- Whatever its parts are, a joined path is in normal form. -/
theorem path_isNormalForm (parts : List Text) : IsNormalForm parts (path parts) := by
  obtain ⟨t, joined⟩ : ∃ t, joinWith slash (given parts) = t := ⟨_, rfl⟩
  obtain ⟨absolute, begins⟩ : ∃ absolute, t.beginsIn slash = absolute := ⟨_, rfl⟩
  obtain ⟨closed, segs, normal, resolves, closes, isPath⟩ := exists_path_eq joined begins
  have isStem : IsStem absolute closed (stem absolute segs) := by
    refine stem_isStem normal fun root => ?_
    exact Bool.eq_false_iff.2 fun isClosed => (closes.1 isClosed).2 root
  have first : (path parts).beginsIn slash = absolute := by rw [isPath, isStem.beginsIn_framed]
  refine ⟨?_, ?_, ?_, ?_, segs, ?_⟩
  · rw [isPath]
    exact isStem.framed_ne_nil
  · rw [first, ← begins, ← joined]
    exact beginsIn_joined parts
  · rw [isPath]
    exact isStem.not_doubled
  · rw [← endsIn_joined, joined, isPath, isStem.endsIn_framed, isStem.framed_eq_slash_iff, closes]
    by_cases root : stem absolute segs = [] <;> simp [root]
  · rw [first]
    refine ⟨normal, resolves, ?_⟩
    rw [isPath, isStem.bare_framed, isStem.framed_eq_slash_iff, stem_eq_nil_iff normal, stem]
    cases absolute <;> by_cases none : segs = [] <;> simp [none]

example : path ["a", "./..", "/"] = Text.ofString "./" := by decide

/-- Two slashes in front outlast normalizing, and joining makes one of them. -/
example : normalize "//a/../b" = Text.ofString "//b" ∧ path ["//a", "../b"] = Text.ofString "/b" := by
  decide

end Join

end HiddenLoads
