/-
# HiddenLoads.Proofs.Names -- dotted names as words of segments

A dotted name and the list of its segments say the same thing: `Tracer.segments` takes a name
apart, `Text.joinWith` puts it together again, and the dot between two names is concatenation
(`segments_dot`).  Read this way, following a name is unfolding the first letter of a word:
`Tracer.unfolding` is that machine, and `move_eq_rename_iff` says that its steps are the
renamings of `Tracer.move`.
-/
import HiddenLoads.Proofs.Splitting
import HiddenLoads.Proofs.Unfolding
import HiddenLoads.Tracer

namespace HiddenLoads

set_option autoImplicit false

namespace Tracer

def segments (name : Text) : List Text := name.splitOn '.'

@[simp] theorem joinWith_segments (name : Text) : Text.joinWith '.' (segments name) = name :=
  Text.joinWith_splitOn _ name

theorem segments_injective : Function.Injective segments :=
  Function.LeftInverse.injective joinWith_segments

theorem segments_joinWith {parts : List Text} (some : parts ≠ [])
    (free : ∀ part ∈ parts, CodePoint.ofChar '.' ∉ part) :
    segments (Text.joinWith '.' parts) = parts :=
  Text.splitOn_joinWith_of_free some free

@[simp] theorem segments_dot (left right : Text) :
    segments (dot left right) = segments left ++ segments right :=
  Text.splitOn_append _ left right

theorem segments_of_not_mem {name : Text} (free : CodePoint.ofChar '.' ∉ name) :
    segments name = [name] :=
  Text.splitOn_of_not_mem free

theorem length_segments (name : Text) : (segments name).length = segmentCount name :=
  (Text.count_add_one_eq _ name).symm

/-- No segment has a dot in it. -/
theorem not_mem_of_mem_segments {name part : Text} (member : part ∈ segments name) :
    CodePoint.ofChar '.' ∉ part :=
  Text.not_mem_of_mem_splitOn member

/-- The first segment is what stands before the first dot, and the others are what follows. -/
theorem segments_cut (name : Text) :
    segments name = (name.cut '.').1 :: (segments name).tail ∧
      Text.joinWith '.' (segments name).tail = (name.cut '.').2 ∧
        ((name.cut '.').2 ≠ [] → (segments name).tail = segments (name.cut '.').2) := by
  by_cases dotted : CodePoint.ofChar '.' ∈ name
  · obtain ⟨head, rest, rfl, free⟩ := List.eq_append_cons_of_mem dotted
    have split : segments (head ++ CodePoint.ofChar '.' :: rest) = head :: segments rest := by
      rw [show head ++ CodePoint.ofChar '.' :: rest = dot head rest from rfl, segments_dot,
        segments_of_not_mem free, List.singleton_append]
    rw [Text.cut_append free, split]
    exact ⟨rfl, joinWith_segments rest, fun _ => rfl⟩
  · rw [Text.cut_of_not_mem dotted, segments_of_not_mem dotted]
    exact ⟨rfl, rfl, fun h => absurd rfl h⟩

/-! ## Following a name as unfolding a word -/

/-- The machine of a tracer: names that are bound or traced settle, and so do names without
members; an alias unfolds to what it stands for, a global object to nothing. -/
def unfolding (t : Tracer) : Unfolding Text where
  settles word :=
    (t.aliases.get? (Text.joinWith '.' word)).isSome ||
      (t.traced.get? (Text.joinWith '.' word)).isSome || (Text.joinWith '.' word.tail).isEmpty
  unfold head :=
    match t.modules.get? head with
    | some _ => none
    | none =>
        match t.aliases.get? head with
        | some target => some (segments target.resolved)
        | none => if globalObjects.contains head then some [] else none

/-- A name is renamed exactly as its word is unfolded. -/
theorem move_eq_rename_iff (t : Tracer) (name other : Text) :
    t.move name = .rename other ↔ t.unfolding.Next (segments name) (segments other) := by
  obtain ⟨split, joined, tail⟩ := segments_cut name
  have whole : Text.joinWith '.' ((name.cut '.').1 :: (segments name).tail) = name := by
    rw [← split, joinWith_segments]
  rw [split, Unfolding.Next, Unfolding.next_cons_eq_some]
  simp only [move, unfolding, whole, List.tail_cons, joined]
  cases t.aliases.get? name with
  | some target => simp
  | none =>
      cases t.traced.get? name with
      | some target => simp
      | none =>
          by_cases empty : (name.cut '.').2 = []
          · simp [empty]
          · have tail := tail empty
            cases t.modules.get? (name.cut '.').1 with
            | some module => simp [empty]
            | none =>
                cases t.aliases.get? (name.cut '.').1 with
                | some target =>
                    simp only [empty, if_false, Move.rename.injEq, Option.isSome_none,
                      Bool.false_or, List.isEmpty_eq_false_iff, ne_eq, not_false_eq_true,
                      true_and, Option.some.injEq, exists_eq_left', tail, ← segments_dot]
                    exact ⟨fun h => by rw [h], fun h => (segments_injective h).symm⟩
                | none =>
                    simp only [List.contains_iff_mem]
                    by_cases global : (name.cut '.').1 ∈ globalObjects
                    · simp only [empty, if_false, global, if_true, Move.rename.injEq,
                        Option.isSome_none, Bool.false_or, List.isEmpty_eq_false_iff, ne_eq,
                        not_false_eq_true, true_and, Option.some.injEq, exists_eq_left',
                        List.nil_append, tail]
                      exact ⟨fun h => by rw [h], fun h => (segments_injective h).symm⟩
                    · simp [empty, global]

end Tracer

end HiddenLoads
