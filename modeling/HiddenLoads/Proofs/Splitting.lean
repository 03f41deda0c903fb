/-
# HiddenLoads.Proofs.Splitting -- cutting a text at a mark and joining the pieces again

Splitting at a mark leaves pieces without the mark (`Text.not_mem_of_mem_splitOn`), and joining them
by the mark gives the text back (`Text.joinWith_splitOn`).  A joined text splits into what its parts
split into (`Text.splitOn_joinWith`).  Where no part is empty it also begins as its first part does
and ends as its last one (`Text.head?_joinWith`, `Text.getLast?_joinWith`).
-/
import HiddenLoads.Text

namespace HiddenLoads

set_option autoImplicit false

namespace Text

theorem splitOn_eq_list (mark : CodePoint) (t : Text) :
    Text.splitOn mark t = List.splitOn mark t := by
  induction t with
  | nil => rfl
  | cons c rest ih =>
      rw [List.splitOn_cons_eq_if_modifyHead, Text.splitOn, ih]
      by_cases hit : c = mark
      · simp [hit]
      · have apart : (c == mark) = false := by simpa using hit
        rw [if_neg hit, apart]
        cases pieces : List.splitOn mark rest with
        | nil => exact absurd pieces (List.splitOn_ne_nil mark rest)
        | cons piece more => rfl

theorem splitOn_ne_nil (mark : CodePoint) (t : Text) : Text.splitOn mark t ≠ [] := by
  rw [splitOn_eq_list]
  exact List.splitOn_ne_nil mark t

theorem joinWith_eq_intercalate (mark : CodePoint) (parts : List Text) :
    Text.joinWith mark parts = [mark].intercalate parts := by
  fun_induction Text.joinWith mark parts with
  | case1 => rfl
  | case2 part => rw [List.intercalate_singleton]
  | case3 part next parts ih => rw [List.intercalate_cons_cons, ih]; simp

/-- A text with a mark in it is cut at the first one. -/
theorem cut_append {mark : CodePoint} {head : Text} (free : mark ∉ head) (rest : Text) :
    Text.cut mark (head ++ mark :: rest) = (head, rest) := by
  induction head with
  | nil => simp [Text.cut]
  | cons c head ih =>
      simp only [List.mem_cons, not_or] at free
      rw [List.cons_append, Text.cut, if_neg (Ne.symm free.1), ih free.2]

/-- A text without a mark is left whole. -/
theorem cut_of_not_mem {mark : CodePoint} {t : Text} (free : mark ∉ t) :
    Text.cut mark t = (t, []) := by
  induction t with
  | nil => rfl
  | cons c rest ih =>
      simp only [List.mem_cons, not_or] at free
      rw [Text.cut, if_neg (Ne.symm free.1), ih free.2]

theorem count_add_one_eq (mark : CodePoint) (t : Text) :
    t.count mark + 1 = (Text.splitOn mark t).length := by
  induction t with
  | nil => rfl
  | cons c rest ih =>
      rw [Text.splitOn]
      by_cases hit : c = mark
      · subst hit
        simp [ih]
      · rw [if_neg hit, List.count_cons_of_ne hit, ih]
        cases pieces : Text.splitOn mark rest with
        | nil => exact absurd pieces (splitOn_ne_nil mark rest)
        | cons piece more => rfl

theorem joinWith_concat (mark : CodePoint) {parts : List Text} (nonempty : parts ≠ [])
    (last : Text) :
    Text.joinWith mark (parts ++ [last]) = Text.joinWith mark parts ++ mark :: last := by
  fun_induction Text.joinWith mark parts with
  | case1 => exact absurd rfl nonempty
  | case2 part => rfl
  | case3 part next parts ih =>
      have rest := ih (List.cons_ne_nil _ _)
      rw [List.cons_append] at rest
      rw [List.cons_append, List.cons_append, Text.joinWith, rest, List.append_assoc,
        List.cons_append]

/-! ## Pieces -/

theorem joinWith_splitOn (mark : CodePoint) (t : Text) :
    Text.joinWith mark (Text.splitOn mark t) = t := by
  rw [splitOn_eq_list, joinWith_eq_intercalate, List.intercalate_splitOn]

theorem splitOn_append (mark : CodePoint) (t u : Text) :
    Text.splitOn mark (t ++ mark :: u) = Text.splitOn mark t ++ Text.splitOn mark u := by
  simp only [splitOn_eq_list]
  exact List.splitOn_append_cons_self t u

theorem splitOn_of_not_mem {mark : CodePoint} {t : Text} (free : mark ∉ t) :
    Text.splitOn mark t = [t] := by
  rw [splitOn_eq_list]
  exact List.splitOn_eq_singleton free

/-- No piece has the mark in it. -/
theorem not_mem_of_mem_splitOn {mark : CodePoint} {t piece : Text}
    (member : piece ∈ Text.splitOn mark t) : mark ∉ piece := by
  by_cases marked : mark ∈ t
  · obtain ⟨head, rest, rfl, free⟩ := List.eq_append_cons_of_mem marked
    rw [splitOn_append, splitOn_of_not_mem free, List.singleton_append, List.mem_cons] at member
    rcases member with rfl | member
    · exact free
    · exact not_mem_of_mem_splitOn member
  · rw [splitOn_of_not_mem marked, List.mem_singleton] at member
    rwa [member]
termination_by t.length

theorem splitOn_joinWith (mark : CodePoint) {parts : List Text} (some : parts ≠ []) :
    Text.splitOn mark (Text.joinWith mark parts) = parts.flatMap (Text.splitOn mark) := by
  fun_induction Text.joinWith mark parts with
  | case1 => exact absurd rfl some
  | case2 part => rw [List.flatMap_singleton]
  | case3 part next parts ih =>
      rw [splitOn_append, ih (List.cons_ne_nil _ _)]
      rfl

/-- Parts without the mark are the pieces of what they make up. -/
theorem splitOn_joinWith_of_free {mark : CodePoint} {parts : List Text} (some : parts ≠ [])
    (free : ∀ part ∈ parts, mark ∉ part) : Text.splitOn mark (Text.joinWith mark parts) = parts := by
  rw [splitOn_eq_list, joinWith_eq_intercalate]
  exact List.splitOn_intercalate _ free some

/-! ## Parts that are not empty -/

theorem joinWith_eq_nil_iff {mark : CodePoint} {parts : List Text}
    (full : ∀ part ∈ parts, part ≠ []) : Text.joinWith mark parts = [] ↔ parts = [] := by
  match parts with
  | [] => simp [Text.joinWith]
  | [part] => simpa [Text.joinWith] using full
  | part :: next :: parts => simp [Text.joinWith]

theorem head?_joinWith {mark : CodePoint} {parts : List Text} (full : ∀ part ∈ parts, part ≠ []) :
    (Text.joinWith mark parts).head? = parts.head?.bind List.head? := by
  match parts with
  | [] => rfl
  | [part] => rfl
  | part :: next :: parts =>
      obtain ⟨c, rest, rfl⟩ := List.exists_cons_of_ne_nil (full part List.mem_cons_self)
      rfl

theorem getLast?_joinWith {mark : CodePoint} {parts : List Text}
    (full : ∀ part ∈ parts, part ≠ []) :
    (Text.joinWith mark parts).getLast? = parts.getLast?.bind List.getLast? := by
  fun_induction Text.joinWith mark parts with
  | case1 => rfl
  | case2 part => rfl
  | case3 part next parts ih =>
      have others : ∀ part ∈ next :: parts, part ≠ [] := (List.forall_mem_cons.1 full).2
      have some : Text.joinWith mark (next :: parts) ≠ [] :=
        mt (joinWith_eq_nil_iff others).1 (List.cons_ne_nil _ _)
      rw [List.getLast?_append, List.getLast?_cons_of_ne_nil some,
        Option.or_of_isSome (List.getLast?_isSome.2 some), ih others, List.getLast?_cons_cons]

end Text

end HiddenLoads
