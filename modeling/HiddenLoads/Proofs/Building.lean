/-
# HiddenLoads.Proofs.Building -- every row is built from its own children

The conversion works off a list of rows and keeps a table of what has been converted.  That a row finds
in it what it asks for is a fact about the state in the middle of the work: when the turn of a row
comes, the table has the expression of every row below that the row reads, whether it reads all of
them, one in a role, or the arguments one row further down (`Expr.Supplies`).  No read fails, and the
row is the one that is assembled from the conversions of its own children.  A part is missing only
where the tree lacks it (`Expr.whole_of_convert`).
-/
import HiddenLoads.Proofs.CallSites

namespace HiddenLoads

set_option autoImplicit false

namespace Tree

/-- The roles that a row of some kind cannot do without. -/
def required (t : Tree) : List Field :=
  match t.kind with
  | .binary | .assignment | .augmentedAssignment => [.left, .right]
  | .call => [.function]
  | .member => [.object, .property]
  | .subscript => [.object, .index]
  | .declarator => [.declared]
  | _ => []

/-- No row that is converted lacks a part that it cannot do without. -/
def Complete (t : Tree) : Prop :=
  ∀ r ∈ t.order, ∀ field ∈ r.required, (r.child? field).any isVisible = true

instance (t : Tree) : Decidable t.Complete :=
  inferInstanceAs (Decidable (∀ r ∈ t.order, ∀ field ∈ r.required,
    (r.child? field).any isVisible = true))

theorem self_mem_order (t : Tree) : t ∈ t.order := by
  rw [order_eq]
  exact List.mem_cons_self

theorem order_subset_of_mem_pending {t u : Tree} (inside : u ∈ t.pending) : u.order ⊆ t.order := by
  intro r isRow
  rw [order_eq]
  exact List.mem_cons_of_mem _ (List.mem_flatMap.2 ⟨u, List.mem_reverse.2 inside, isRow⟩)

end Tree

namespace Expr

/-! ## What a row asks for -/

/-- The table has what a row asks for: the expression of every row directly below, the expression of
whatever is in a role if it is visible, and the arguments of a call one by one.  Each of them is the
conversion of that row as a tree of its own. -/
structure Supplies (source : Source) (built : Table) (n : Numbered) (below : List Expr) : Prop where
  each : List.Forall₂ (fun c e => built.read c = .ok e ∧ ofTree source c.tree = .ok e) n.pending below
  roles : n.kind.isLeaf = false → ∀ c ∈ n.children,
    built[c.number]? = if c.isVisible then (ofTree source c.tree).toOption else none
  arguments : n.kind = .call → ∀ a, n.child? .arguments = some a →
    ∀ c ∈ if a.kind = .arguments then a.visible else [a],
      ∃ e, built.read c = .ok e ∧ ofTree source c.tree = .ok e

/-! ## What is missing -/

def Whole (e : Expr) : Prop := ∀ inner ∈ e.within, inner.isMissing = false

theorem whole_of_children {e : Expr} (present : e.isMissing = false)
    (inside : ∀ child ∈ e.children, child.Whole) : e.Whole := by
  intro inner isInner
  rw [within_eq, List.mem_cons, mem_withinAll] at isInner
  rcases isInner with rfl | ⟨child, isChild, isInner⟩
  · exact present
  · exact inside child isChild inner isInner

theorem Whole.child {e child : Expr} (whole : e.Whole) (isChild : child ∈ e.children) :
    child.Whole :=
  fun inner isInner => whole inner (within_subset_of_mem_children isChild isInner)

section Row

variable {source : Source} {t : Tree} {below : List Expr}

/-! What holds of the expressions of the rows below holds of whatever the row takes from them. -/

section Inherit

variable {P : Expr → Prop} (each : ∀ u ∈ t.pending, ∀ e, convert source u = .ok e → P e)

include each

theorem inherit_part (branch : t.kind.isLeaf = false) {u : Tree} {e : Expr}
    (isChild : u ∈ t.children) (made : part source u = some e) : P e := by
  obtain ⟨visible, converts⟩ := part_eq_some_iff.1 made
  apply each u ?_ e converts
  rw [Tree.pending, branch, if_neg Bool.false_ne_true]
  exact List.mem_filter.2 ⟨isChild, visible⟩

/-- What stands in a role, if anything stands there. -/
theorem inherit_role (branch : t.kind.isLeaf = false) {field : Field}
    (present : inRole (t.children.map fun u => (u, part source u)) field ≠ .missing) :
    P (inRole (t.children.map fun u => (u, part source u)) field) := by
  rw [inRole, find?_role] at present ⊢
  cases child : t.child? field with
  | none => simp [child] at present
  | some u =>
      cases made : part source u with
      | none => simp [child, made] at present
      | some e =>
          have holds := inherit_part each branch (List.mem_of_find?_eq_some child) made
          simpa [made] using holds

theorem inherit_below
    (converted : List.Forall₂ (fun u e => convert source u = .ok e) t.pending below) :
    ∀ e ∈ below, P e := by
  intro e inside
  obtain ⟨u, isChild, made⟩ := (Outcome.mem_iff_of_forall₂ converted e).1 inside
  exact each u isChild e made

/-- The arguments of a call, which stand inside the expression of a row. -/
theorem inherit_arguments (closed : ∀ e child, P e → child ∈ e.children → P child)
    (isCall : t.kind = .call) {arguments : List Expr}
    (found : callArguments (t.children.map fun u => (u, part source u)) = .ok arguments) :
    ∀ e ∈ arguments, P e := by
  have branch : t.kind.isLeaf = false := by rw [isCall]; rfl
  rw [callArguments, find?_role] at found
  cases child : t.child? .arguments with
  | none =>
      rw [child] at found
      cases found
      simp
  | some a =>
      rw [child, Option.map_some] at found
      cases made : part source a with
      | none =>
          rw [made] at found
          simp only at found
          split at found <;> cases found
          simp
      | some e =>
          have holds := inherit_part each branch (List.mem_of_find?_eq_some child) made
          rw [made] at found
          cases found
          split
          · exact fun e' inside => closed e e' holds inside
          · simpa using holds

/-- What stands in the substitutions of a template. -/
theorem inherit_holes (branch : t.kind.isLeaf = false) :
    ∀ e ∈ (t.children.map fun u => (u, part source u)).filterMap (fun part =>
      if part.1.kind = .substitution then part.2 else none), P e := by
  intro e isHole
  rw [List.filterMap_map, List.mem_filterMap] at isHole
  obtain ⟨u, isChild, contributes⟩ := isHole
  have made : part source u = some e := (Option.ite_none_right_eq_some.1 contributes).2
  exact inherit_part each branch isChild made

end Inherit

/-- What stands in a role that is occupied is whole. -/
theorem whole_inRole (branch : t.kind.isLeaf = false)
    (converted : List.Forall₂ (fun u e => convert source u = .ok e) t.pending below)
    (whole : ∀ u ∈ t.pending, ∀ e, convert source u = .ok e → e.Whole) {field : Field}
    (occupied : (t.child? field).any Tree.isVisible = true) :
    (inRole (t.children.map fun u => (u, part source u)) field).Whole := by
  apply inherit_role whole branch
  intro vacant
  have none := isMissing_inRole branch converted field
  rw [vacant, occupied] at none
  cases none

/-- Where a child in the expression of a row comes from: it is one of the expressions below, it stands
in a role that the row cannot do without or that is not vacant, or it is an argument or a
substitution. -/
inductive Origin (source : Source) (t : Tree) (below : List Expr) : Expr → Prop
  | below {child : Expr} (inside : child ∈ below) : Origin source t below child
  | needed {field : Field} (isNeeded : field ∈ t.required) :
      Origin source t below (inRole (t.children.map fun u => (u, part source u)) field)
  | present {field : Field}
      (occupied : inRole (t.children.map fun u => (u, part source u)) field ≠ .missing) :
      Origin source t below (inRole (t.children.map fun u => (u, part source u)) field)
  | argument {child : Expr} {arguments : List Expr} (isCall : t.kind = .call)
      (found : callArguments (t.children.map fun u => (u, part source u)) = .ok arguments)
      (inside : child ∈ arguments) : Origin source t below child
  | hole {child : Expr}
      (inside : child ∈ (t.children.map fun u => (u, part source u)).filterMap (fun part =>
        if part.1.kind = .substitution then part.2 else none)) : Origin source t below child

/-- A row passes on an expression from below or makes one of what it has. -/
theorem origin_of_assemble (branch : t.kind.isLeaf = false)
    (aligned : align t.children below = t.children.map fun u => (u, part source u)) {e : Expr}
    (built : assemble source t below = .ok e) :
    e ∈ below ∨ ∀ child ∈ e.children, Origin source t below child := by
  have unnamed : ¬ t.kind.isName = true := fun isName => by
    rw [isLeaf_of_isName isName] at branch
    cases branch
  unfold assemble at built
  simp only [aligned, if_neg unnamed] at built
  have needed : ∀ field ∈ t.required,
      Origin source t below (inRole (t.children.map fun u => (u, part source u)) field) :=
    fun field => .needed
  cases isKind : t.kind with
  | template =>
      simp only [isKind] at built
      split at built
      · cases built
        exact .inr (by simp [children])
      · cases built
        exact .inr fun child => .hole
  | array =>
      simp only [isKind] at built
      cases built
      exact .inr fun child => .below
  | binary | member | subscript | assignment | augmentedAssignment =>
      simp only [isKind] at built
      cases built
      simp only [Tree.required, isKind] at needed
      exact .inr (by simpa [children] using needed)
  | call =>
      simp only [isKind] at built
      obtain ⟨arguments, found, built⟩ := Outcome.bind_eq_ok_iff.1 built
      cases built
      refine .inr fun child inside => ?_
      rcases List.mem_cons.1 inside with rfl | inside
      · exact .needed (by simp [Tree.required, isKind])
      · exact .argument isKind found inside
  | parenthesized =>
      simp only [isKind] at built
      split at built
      · split at built
        · cases built
          exact .inr fun child => .below
        · cases built
          exact .inl List.mem_cons_self
      · cases built
        exact .inr fun child => .below
  | objectPattern =>
      simp only [isKind] at built
      cases built
      exact .inr (by simp [children])
  | declarator =>
      simp only [isKind] at built
      have declared := needed .declared (by simp [Tree.required, isKind])
      split at built
      case h_1 =>
          cases built
          exact .inr (by simpa [children] using declared)
      case h_2 occupied =>
          cases built
          exact .inr (by simpa [children] using ⟨declared, .present occupied⟩)
  | importStatement | exportStatement =>
      simp only [isKind] at built
      split at built
      case h_1 =>
          cases built
          exact .inr fun child => .below
      case h_2 occupied =>
          cases built
          exact .inr (by simpa [children] using .present occupied)
  | substitution | arguments | sequence | arrayPattern | pairPattern | defaultPattern | comment
  | htmlComment | other =>
      simp only [isKind] at built
      cases built
      exact .inr fun child => .below
  | _ =>
      rw [isKind] at branch
      cases branch

/-- What holds of the rows below holds of every child in the expression of the row, if it holds of
the roles that the row cannot do without. -/
theorem Origin.inherit {child : Expr} (origin : Origin source t below child) {P : Expr → Prop}
    (each : ∀ u ∈ t.pending, ∀ e, convert source u = .ok e → P e)
    (closed : ∀ e child, P e → child ∈ e.children → P child) (branch : t.kind.isLeaf = false)
    (converted : List.Forall₂ (fun u e => convert source u = .ok e) t.pending below)
    (needed : ∀ field ∈ t.required,
      P (inRole (t.children.map fun u => (u, part source u)) field)) : P child := by
  cases origin with
  | below inside => exact inherit_below each converted child inside
  | needed isNeeded => exact needed _ isNeeded
  | present occupied => exact inherit_role each branch occupied
  | argument isCall found inside => exact inherit_arguments each closed isCall found child inside
  | hole inside => exact inherit_holes each branch child inside

/-- A row is whole if the rows below it are and no part is missing that it cannot do without. -/
theorem whole_of_row (complete : ∀ field ∈ t.required, (t.child? field).any Tree.isVisible = true)
    (whole : ∀ u ∈ t.pending, ∀ e, convert source u = .ok e → e.Whole) {e : Expr}
    (made : convert source t = .ok e) : e.Whole := by
  have present := not_missing_of_convert made
  cases branch : t.kind.isLeaf with
  | true =>
      obtain ⟨_, empty⟩ := eq_nil_of_leaf branch made
      exact whole_of_children present (by simp [empty])
  | false =>
      obtain ⟨below, converted, built⟩ := (convert_eq_ok_iff source t e).1 made
      rcases origin_of_assemble branch (align_of_converted branch converted) built with passed | origin
      · exact inherit_below whole converted e passed
      · apply whole_of_children present
        intro child isChild
        refine (origin child isChild).inherit whole (fun _ _ => Whole.child) branch converted ?_
        exact fun field isNeeded => whole_inRole branch converted whole (complete field isNeeded)

end Row

/-- No part is missing in the conversion of a complete tree. -/
theorem whole_of_convert {source : Source} {t : Tree} {e : Expr} (complete : t.Complete)
    (made : convert source t = .ok e) : e.Whole := by
  refine whole_of_row (complete t t.self_mem_order) (fun u isChild e' made' => ?_) made
  have smaller := Tree.size_lt_of_mem_pending isChild
  exact whole_of_convert (fun r isRow => complete r (Tree.order_subset_of_mem_pending isChild isRow))
    made'
termination_by t.size

/-! ## The whole conversion -/

theorem argument_mem_rows {root n a c : Numbered} (isRow : n ∈ root.rows)
    (child : n.child? .arguments = some a)
    (isArgument : c ∈ if a.kind = .arguments then a.visible else [a]) : c ∈ root.rows := by
  have isRow' : a ∈ root.rows :=
    Numbered.mem_rows_of_mem_children isRow (List.mem_of_find?_eq_some child)
  split at isArgument
  · exact Numbered.mem_rows_of_mem_children isRow' (List.mem_of_mem_filter isArgument)
  · rw [List.mem_singleton.1 isArgument]
    exact isRow'

/-- At its turn a row finds what it asks for. -/
theorem supplies_of_turn {source : Source} {root n : Numbered} {after : List Numbered} {built : Table}
    (turn : Turn source root n after built) {e : Expr} (made : convert source n.tree = .ok e) :
    ∃ below, Supplies source built n below ∧ assemble source n.tree below = .ok e := by
  obtain ⟨below, converted, assembled⟩ := (convert_eq_ok_iff source n.tree e).1 made
  refine ⟨below, ⟨?_, ?_, ?_⟩, assembled⟩
  · rw [← turn.distinct.map_tree_pending turn.mem_rows] at converted
    simp only [ofTree_eq_convert]
    exact turn.read_of_converted turn.pending_subset converted
  · intro branch c isChild
    rw [turn.lookup_child branch isChild, ofTree_eq_convert]
    rfl
  · intro isCall a child c isArgument
    have isKind : n.tree.kind = .call := isCall
    -- The call is built, so each of its arguments has been read.
    have done : build source built n = .ok e := turn.build_eq_convert.trans made
    simp only [build, isKind, Kind.isName, Bool.false_eq_true, if_false] at done
    obtain ⟨arguments, found, -⟩ := Outcome.bind_eq_ok_iff.1 done
    rw [readArguments, child] at found
    obtain ⟨e', reads⟩ :=
      Outcome.exists_forall₂_iff.1 ⟨arguments, Outcome.mapM_eq_ok_iff.1 found⟩ c isArgument
    have isRow := argument_mem_rows turn.mem_rows child isArgument
    refine ⟨e', reads, ?_⟩
    rw [ofTree_eq_convert]
    exact turn.convert_of_lookup isRow (Table.read_eq_ok_iff.1 reads)

/-- **Every row is built from its own children.**  Where the arguments of every call can be read, no
row is missed: all rows are worked off, and then the tree itself is in the table.  When the turn of a
row comes, the table has whatever the row asks for, so building succeeds.  What is built is assembled
from the expressions of the row's own children; it stays in the table until the end, and it is what the
row has as a tree of its own.  In a tree without gaps no part of the result is missing. -/
theorem row_built_from_children (source : Source) {t : Tree}
    (readable : ∀ c ∈ t.order, c.kind = .call → c.argumentsRead = true) :
    t.numbered.order.map Numbered.tree = t.order ∧ (∃ e, ofTree source t = .ok e) ∧
    (∃ done, t.numbered.order.reverse.foldlM (store source) ∅ = .ok done ∧
      ∀ before n after, t.numbered.order = before ++ n :: after → ∃ built below e,
        after.reverse.foldlM (store source) ∅ = .ok built ∧ Supplies source built n below ∧
        build source built n = .ok e ∧ assemble source n.tree below = .ok e ∧
        done.read n = .ok e ∧ ofTree source n.tree = .ok e) ∧
    (t.Complete → ∀ e, ofTree source t = .ok e → ∀ inner ∈ e.within, inner.isMissing = false) := by
  have distinct := Numbered.distinct_numbered t
  obtain ⟨e, made⟩ := (exists_convert_iff source t).2 readable
  have same : t.numbered.tree = t := Tree.tree_numberFrom 0 t
  have top : convert source t.numbered.tree = .ok e := by rw [same, made]
  obtain ⟨done, run, holds⟩ := exists_table distinct top List.suffix_rfl
  refine ⟨by rw [distinct.map_tree_order, same], ⟨e, by rw [ofTree_eq_convert, made]⟩,
    ⟨done, run, ?_⟩, ?_⟩
  · intro before n after split
    have listed : n :: after <:+ t.numbered.order := ⟨before, split.symm⟩
    obtain ⟨built, worked, before'⟩ := exists_table distinct top ((List.suffix_cons n after).trans listed)
    have turn : Turn source t.numbered n after built := ⟨distinct, listed, before'⟩
    obtain ⟨inner, own, found⟩ := holds.all n turn.mem_order
    obtain ⟨below, supplies, assembled⟩ := supplies_of_turn turn own
    exact ⟨built, below, inner, worked, supplies, turn.build_eq_convert.trans own, assembled,
      Table.read_eq_ok_iff.2 found, by rw [ofTree_eq_convert, own]⟩
  · intro complete e' made'
    rw [ofTree_eq_convert] at made'
    exact whole_of_convert complete made'

/-- The arguments `(/**/a.b, x)`. -/
def argumentsWithComment : Tree :=
  rowOf .arguments .arguments 1 13
    [rowOf .comment (.other []) 2 6 [],
      rowOf .member (.other []) 6 9
        [rowOf .identifier .object 6 7 [], rowOf .propertyIdentifier .property 8 9 []],
      rowOf .identifier (.other []) 11 12 []]

/-- `f(/**/a.b, x)`. -/
def callWithComment : Tree :=
  rowOf .call (.other []) 0 13 [rowOf .identifier .function 0 1 [], argumentsWithComment]

/-- When the turn of the arguments comes, the table has what they ask for, and in the end nothing is
missing. -/
theorem callWithComment_built :
    (∀ c ∈ callWithComment.order, c.kind = .call → c.argumentsRead = true) ∧
    callWithComment.Complete ∧
    (∃ built below, (callWithComment.numbered.order.drop 2).reverse.foldlM
        (store (asciiSource "f(/**/a.b, x)")) ∅ = .ok built ∧
      Supplies (asciiSource "f(/**/a.b, x)") built (argumentsWithComment.numberFrom 2).1 below) ∧
    ∃ e, ofTree (asciiSource "f(/**/a.b, x)") callWithComment = .ok e ∧
      ∀ inner ∈ e.within, inner.isMissing = false := by
  have readable : ∀ c ∈ callWithComment.order, c.kind = .call → c.argumentsRead = true := by decide
  have complete : callWithComment.Complete := by decide
  obtain ⟨-, ⟨e, made⟩, ⟨done, -, rows⟩, whole⟩ :=
    row_built_from_children (asciiSource "f(/**/a.b, x)") readable
  have split : callWithComment.numbered.order = [callWithComment.numbered] ++
      (argumentsWithComment.numberFrom 2).1 :: callWithComment.numbered.order.drop 2 := rfl
  obtain ⟨built, below, _, worked, supplies, _⟩ := rows _ _ _ split
  exact ⟨readable, complete, ⟨built, below, worked, supplies⟩, e, made, whole complete e made⟩

end Expr

end HiddenLoads
