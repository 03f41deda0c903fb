/-
# HiddenLoads.Proofs.Numbering -- rows are told apart by their numbers

Numbering gives every row of a tree a number of its own (`Tree.numbers_rows`), and it leaves the tree
as it is.  `Numbered.Distinct` keeps these two facts, and nothing else about numbers is used: rows with
the same number are the same row (`Distinct.eq_of_number`), and every row is directly below one row at
most (`Distinct.parent_eq`).

The order in which rows are worked off is that of a stack.  Every row in it comes before the rows that
it puts there (`Distinct.pending_subset_after`), and no row gets there except through the row above it
(`Numbered.exists_above`).
-/
import HiddenLoads.Proofs.Conversion
import Mathlib.Data.List.Nodup
import Mathlib.Data.List.Pairwise

namespace HiddenLoads

set_option autoImplicit false

/-! ## Rows and their numbers -/

namespace Numbered

mutual

def rows : Numbered → List Numbered
  | .node number tree children => .node number tree children :: rowsAll children

def rowsAll : List Numbered → List Numbered
  | [] => []
  | n :: ns => rows n ++ rowsAll ns

end

theorem rowsAll_eq (ns : List Numbered) : rowsAll ns = ns.flatMap rows := by
  induction ns with
  | nil => rfl
  | cons n ns ih => rw [rowsAll, ih, List.flatMap_cons]

theorem rows_eq (n : Numbered) : n.rows = n :: n.children.flatMap rows := by
  obtain ⟨number, tree, children⟩ := n
  rw [rows, rowsAll_eq]
  rfl

theorem self_mem_rows (n : Numbered) : n ∈ n.rows := by
  rw [rows_eq]
  exact List.mem_cons_self

end Numbered

namespace Tree

theorem tree_numberFrom (next : Nat) (t : Tree) : (t.numberFrom next).1.tree = t := by
  obtain ⟨row, children⟩ := t
  rfl

mutual

theorem numberFrom_snd (next : Nat) : ∀ t : Tree, (t.numberFrom next).2 = next + t.size
  | .node row children => by
      rw [numberFrom, size]
      show (numberAllFrom (next + 1) children).2 = _
      rw [numberAllFrom_snd (next + 1) children]
      omega

theorem numberAllFrom_snd (next : Nat) :
    ∀ ts : List Tree, (numberAllFrom next ts).2 = next + sizeAll ts
  | [] => rfl
  | t :: ts => by
      rw [numberAllFrom, sizeAll]
      show (numberAllFrom (t.numberFrom next).2 ts).2 = _
      rw [numberFrom_snd next t, numberAllFrom_snd (next + t.size) ts, Nat.add_assoc]

end

mutual

/-- The rows of a tree have the numbers from the first one on, without a gap. -/
theorem numbers_rows (next : Nat) :
    ∀ t : Tree, (t.numberFrom next).1.rows.map Numbered.number = List.range' next t.size
  | .node row children => by
      rw [numberFrom, size, List.range'_succ]
      show next :: (Numbered.rowsAll (numberAllFrom (next + 1) children).1).map _ = _
      rw [numbers_rowsAll (next + 1) children]

theorem numbers_rowsAll (next : Nat) :
    ∀ ts : List Tree, (Numbered.rowsAll (numberAllFrom next ts).1).map Numbered.number =
      List.range' next (sizeAll ts)
  | [] => rfl
  | t :: ts => by
      rw [numberAllFrom, sizeAll]
      show ((t.numberFrom next).1.rows ++
        Numbered.rowsAll (numberAllFrom (t.numberFrom next).2 ts).1).map _ = _
      rw [List.map_append, numbers_rows next t, numberFrom_snd, numbers_rowsAll (next + t.size) ts,
        List.range'_append_1]

end

theorem map_tree_numberAllFrom (next : Nat) (ts : List Tree) :
    (numberAllFrom next ts).1.map Numbered.tree = ts := by
  induction ts generalizing next with
  | nil => rfl
  | cons t ts ih =>
      rw [numberAllFrom]
      show (t.numberFrom next).1.tree :: (numberAllFrom _ ts).1.map _ = _
      rw [tree_numberFrom, ih]

mutual

/-- Below a numbered row stand the rows that stood below it before. -/
theorem children_of_mem_rows (next : Nat) :
    ∀ (t : Tree), ∀ n ∈ (t.numberFrom next).1.rows, n.children.map Numbered.tree = n.tree.children
  | .node row children => by
      rw [numberFrom]
      intro n inside
      rcases List.mem_cons.1 inside with rfl | inside
      · exact map_tree_numberAllFrom (next + 1) children
      · exact children_of_mem_rowsAll (next + 1) children n inside

theorem children_of_mem_rowsAll (next : Nat) :
    ∀ (ts : List Tree), ∀ n ∈ Numbered.rowsAll (numberAllFrom next ts).1,
      n.children.map Numbered.tree = n.tree.children
  | [] => by
      intro n inside
      cases inside
  | t :: ts => by
      rw [numberAllFrom]
      intro n inside
      rcases List.mem_append.1 inside with inside | inside
      · exact children_of_mem_rows next t n inside
      · exact children_of_mem_rowsAll _ ts n inside

end

end Tree

namespace Numbered

/-- Every row has a number of its own, and below it stand the rows of its tree. -/
structure Distinct (root : Numbered) : Prop where
  nodup : (root.rows.map number).Nodup
  children : ∀ n ∈ root.rows, n.children.map tree = n.tree.children

theorem distinct_numbered (t : Tree) : t.numbered.Distinct where
  nodup := by
    rw [Tree.numbered, Tree.numbers_rows]
    exact List.nodup_range'
  children := Tree.children_of_mem_rows 0 t

mutual

/-- Every row but the first is directly below exactly one row. -/
theorem rows_perm : ∀ n : Numbered, n.rows.Perm (n :: n.rows.flatMap children)
  | .node number tree children => by
      rw [rows, List.flatMap_cons]
      exact (rowsAll_perm children).cons _

theorem rowsAll_perm :
    ∀ ns : List Numbered, (rowsAll ns).Perm (ns ++ (rowsAll ns).flatMap children)
  | [] => .nil
  | n :: ns => by
      rw [rowsAll, List.flatMap_append, List.cons_append]
      refine ((rows_perm n).append (rowsAll_perm ns)).trans ?_
      rw [List.cons_append, ← List.append_assoc, ← List.append_assoc]
      exact ((List.perm_append_comm.append_right _)).cons _

end

theorem mem_rows_of_mem_children {root n c : Numbered} (isRow : n ∈ root.rows)
    (below : c ∈ n.children) : c ∈ root.rows :=
  (rows_perm root).mem_iff.2 (List.mem_cons_of_mem _ (List.mem_flatMap.2 ⟨n, isRow, below⟩))

theorem pending_subset_children (n : Numbered) : n.pending ⊆ n.children := by
  intro c inside
  rw [pending] at inside
  split at inside
  · cases inside
  · exact List.mem_of_mem_filter inside

theorem isVisible_of_mem_pending {n c : Numbered} (inside : c ∈ n.pending) : c.isVisible = true := by
  rw [pending] at inside
  split at inside
  · cases inside
  · exact (List.mem_filter.1 inside).2

theorem pending_of_branch {n : Numbered} (branch : n.kind.isLeaf = false) : n.pending = n.visible := by
  rw [pending, branch, if_neg Bool.false_ne_true]

namespace Distinct

variable {root : Numbered} (distinct : root.Distinct)

include distinct

theorem eq_of_number {m n : Numbered} (isM : m ∈ root.rows) (isN : n ∈ root.rows)
    (same : m.number = n.number) : m = n :=
  List.inj_on_of_nodup_map distinct.nodup isM isN same

theorem nodup_below : (root :: root.rows.flatMap Numbered.children).Nodup :=
  (rows_perm root).nodup_iff.1 (List.Nodup.of_map _ distinct.nodup)

theorem ne_root {n c : Numbered} (isRow : n ∈ root.rows) (below : c ∈ n.children) : c ≠ root := by
  rintro rfl
  exact (List.nodup_cons.1 distinct.nodup_below).1 (List.mem_flatMap.2 ⟨n, isRow, below⟩)

theorem parent_eq {m n c : Numbered} (isM : m ∈ root.rows) (isN : n ∈ root.rows)
    (belowM : c ∈ m.children) (belowN : c ∈ n.children) : m = n := by
  by_contra differ
  have apart := (List.nodup_flatMap.1 (List.nodup_cons.1 distinct.nodup_below).2).2
  have : Std.Symm (Function.onFun List.Disjoint Numbered.children) :=
    ⟨fun _ _ disjoint _ first second => disjoint second first⟩
  exact apart.forall isM isN differ belowM belowN

theorem map_tree_visible {n : Numbered} (isRow : n ∈ root.rows) :
    n.visible.map tree = n.tree.visible := by
  rw [Tree.visible, ← distinct.children n isRow, List.filter_map]
  rfl

theorem map_tree_pending {n : Numbered} (isRow : n ∈ root.rows) :
    n.pending.map tree = n.tree.pending := by
  rw [pending, Tree.pending, kind]
  split
  · rfl
  · exact distinct.map_tree_visible isRow

end Distinct

end Numbered

/-! ## The order of the stack -/

section Drain

variable {α : Type} {below : α → List α}

section Closed

variable {P : α → Prop} (closed : ∀ a, P a → ∀ b ∈ below a, P b)

include closed

theorem forall_mem_next {top : α} {stack : List α} (holds : ∀ a ∈ top :: stack, P a) :
    ∀ a ∈ (below top).reverse ++ stack, P a := by
  obtain ⟨first, more⟩ := List.forall_mem_cons.1 holds
  refine List.forall_mem_append.2 ⟨fun a inside => ?_, more⟩
  exact closed top first a (List.mem_reverse.1 inside)

/-- What holds of the items on the stack and goes down from an item to those below it. -/
theorem forall_mem_drain {fuel : Nat} {stack : List α} (holds : ∀ a ∈ stack, P a) :
    ∀ a ∈ drain below fuel stack, P a := by
  induction fuel generalizing stack with
  | zero =>
      intro a inside
      cases inside
  | succ fuel ih =>
      cases stack with
      | nil =>
          intro a inside
          cases inside
      | cons top stack =>
          rw [drain]
          exact List.forall_mem_cons.2
            ⟨holds top List.mem_cons_self, ih (forall_mem_next closed holds)⟩

/-- Two stacks that match item by item are drained alike. -/
theorem map_drain {β : Type} {f : α → β} {below' : β → List β}
    (alike : ∀ a, P a → (below a).map f = below' (f a)) (fuel : Nat) {stack : List α}
    (holds : ∀ a ∈ stack, P a) :
    (drain below fuel stack).map f = drain below' fuel (stack.map f) := by
  induction fuel generalizing stack with
  | zero => rfl
  | succ fuel ih =>
      cases stack with
      | nil => rfl
      | cons top stack =>
          rw [drain, List.map_cons, ih (forall_mem_next closed holds), List.map_append,
            List.map_reverse, alike top (holds top List.mem_cons_self)]
          rfl

end Closed

/-- Whatever comes to the top was on the stack or is below something that came to the top. -/
theorem mem_stack_or_below {fuel : Nat} {stack : List α} {a : α} (inside : a ∈ drain below fuel stack) :
    a ∈ stack ∨ ∃ b ∈ drain below fuel stack, a ∈ below b := by
  induction fuel generalizing stack with
  | zero => cases inside
  | succ fuel ih =>
      cases stack with
      | nil => cases inside
      | cons top stack =>
          rw [drain] at inside ⊢
          rcases List.mem_cons.1 inside with rfl | inside
          · exact .inl List.mem_cons_self
          · rcases ih inside with waits | ⟨b, isItem, isBelow⟩
            · rcases List.mem_append.1 waits with isBelow | waits
              · exact .inr ⟨top, List.mem_cons_self, List.mem_reverse.1 isBelow⟩
              · exact .inl (List.mem_cons_of_mem _ waits)
            · exact .inr ⟨b, List.mem_cons_of_mem _ isItem, isBelow⟩

end Drain

namespace Numbered

theorem self_mem_order (root : Numbered) : root ∈ root.order := by
  obtain ⟨size, isSize⟩ : ∃ n, root.tree.size = n + 1 := ⟨_, root.tree.size_eq⟩
  rw [order, isSize, drain]
  exact List.mem_cons_self

theorem pending_rows {root : Numbered} : ∀ n, n ∈ root.rows → ∀ c ∈ n.pending, c ∈ root.rows :=
  fun n isRow _ below => mem_rows_of_mem_children isRow (n.pending_subset_children below)

theorem order_subset_rows (root : Numbered) : root.order ⊆ root.rows :=
  fun n => forall_mem_drain pending_rows (by simpa using root.self_mem_rows) n

/-- No row is converted except through the row above it. -/
theorem exists_above {root n : Numbered} (inside : n ∈ root.order) :
    n = root ∨ ∃ m ∈ root.order, n ∈ m.pending := by
  rcases mem_stack_or_below inside with waits | above
  · exact .inl (List.mem_singleton.1 waits)
  · exact .inr above

namespace Distinct

variable {root : Numbered} (distinct : root.Distinct)

include distinct

/-- The order is that of the rows without their numbers. -/
theorem map_tree_order : root.order.map tree = root.tree.order :=
  map_drain pending_rows (fun _ isRow => distinct.map_tree_pending isRow) _
    (by simpa using root.self_mem_rows)

/-- A child is converted only as one of the rows that its parent puts on the stack. -/
theorem mem_pending_of_mem_order {n c : Numbered} (isRow : n ∈ root.rows) (below : c ∈ n.children)
    (inside : c ∈ root.order) : n ∈ root.order ∧ c ∈ n.pending := by
  rcases exists_above inside with isRoot | ⟨m, isItem, waits⟩
  · exact absurd isRoot (distinct.ne_root isRow below)
  · have same := distinct.parent_eq (root.order_subset_rows isItem) isRow
      (m.pending_subset_children waits) below
    exact same ▸ ⟨isItem, waits⟩

/-- Fuel that covers the rows of a stack still does so when the one on top gives way. -/
theorem covers_next {fuel : Nat} {n : Numbered} {stack : List Numbered} (isRow : n ∈ root.rows)
    (enough : Tree.sizeAll ((n :: stack).map tree) ≤ fuel + 1) :
    Tree.sizeAll ((n.pending.reverse ++ stack).map tree) ≤ fuel := by
  have smaller := Tree.sizeAll_pending_lt n.tree
  rw [List.map_cons, Tree.sizeAll] at enough
  rw [List.map_append, List.map_reverse, distinct.map_tree_pending isRow, Tree.sizeAll_append,
    Tree.sizeAll_reverse]
  omega

/-- Everything on a stack comes to the top. -/
theorem subset_drain {fuel : Nat} {stack : List Numbered} (rows : ∀ n ∈ stack, n ∈ root.rows)
    (enough : Tree.sizeAll (stack.map tree) ≤ fuel) : stack ⊆ drain pending fuel stack := by
  induction fuel generalizing stack with
  | zero =>
      cases stack with
      | nil => exact List.nil_subset _
      | cons n stack =>
          have positive := n.tree.size_eq
          rw [List.map_cons, Tree.sizeAll] at enough
          omega
  | succ fuel ih =>
      cases stack with
      | nil => exact List.nil_subset _
      | cons n stack =>
          have next := ih (forall_mem_next pending_rows rows)
            (distinct.covers_next (rows n List.mem_cons_self) enough)
          rw [drain]
          exact List.cons_subset_cons _ fun m waits => next (List.mem_append_right _ waits)

/-- Wherever a row stands, the rows that it puts on the stack come after it. -/
theorem pending_subset_of_drain {fuel : Nat} {stack before after : List Numbered} {n : Numbered}
    (rows : ∀ n ∈ stack, n ∈ root.rows) (enough : Tree.sizeAll (stack.map tree) ≤ fuel)
    (split : drain pending fuel stack = before ++ n :: after) : n.pending ⊆ after := by
  induction fuel generalizing stack before with
  | zero => simp [drain] at split
  | succ fuel ih =>
      cases stack with
      | nil => simp [drain] at split
      | cons top stack =>
          have next := forall_mem_next pending_rows rows
          have covers := distinct.covers_next (rows top List.mem_cons_self) enough
          rw [drain] at split
          cases before with
          | nil =>
              obtain ⟨rfl, rfl⟩ := List.cons.inj split
              intro c inside
              exact distinct.subset_drain next covers
                (List.mem_append_left _ (List.mem_reverse.2 inside))
          | cons first before => exact ih next covers (List.cons.inj split).2

theorem pending_subset_after {after : List Numbered} {n : Numbered}
    (listed : n :: after <:+ root.order) : n.pending ⊆ after := by
  obtain ⟨before, split⟩ := listed
  exact distinct.pending_subset_of_drain (by simpa using root.self_mem_rows)
    (by simp [Tree.sizeAll]) split.symm

end Distinct

end Numbered

end HiddenLoads
