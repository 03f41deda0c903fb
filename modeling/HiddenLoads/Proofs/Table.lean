/-
# HiddenLoads.Proofs.Table -- the table holds what a row asks for

The conversion works off the rows of a tree backwards, and each row reads from a table what has been
converted before.  `Table.Holds` is the invariant: the table has the expression of every row that has
been worked off, and of no other row.  When the turn of a row comes, the rows below it have been worked
off, so whatever the row reads is there (`Turn.lookup_child`); and nothing stands under the number of a
row that is not converted (`Turn.lookup_grandchild`).  Building the row from the table is therefore
assembling it from the expressions of its children (`Turn.build_eq_assemble`), and the conversion as a
whole is the recursion behind it, failures included (`Expr.ofTree_eq_convert`).
-/
import HiddenLoads.Proofs.Numbering
import HiddenLoads.Proofs.Rows

namespace HiddenLoads

set_option autoImplicit false

open HiddenLoads.Expr (convert part)

namespace Table

theorem read_eq_ok_iff {built : Table} {n : Numbered} {e : Expr} :
    built.read n = .ok e ↔ built[n.number]? = some e := by
  rw [read]
  cases built[n.number]? <;> simp

/-- Reading some rows fails at the first of them if nothing stands under its number. -/
theorem readAll_of_absent {built : Table} {n : Numbered} (absent : built[n.number]? = none)
    (ns : List Numbered) : built.readAll (n :: ns) = .error .unconvertedChild := by
  rw [readAll, List.mapM_cons, read, absent]
  rfl

/-- The table holds the expressions of these rows, and of no others. -/
structure Holds (source : Source) (built : Table) (rows : List Numbered) : Prop where
  all : ∀ n ∈ rows, ∃ e, convert source n.tree = .ok e ∧ built[n.number]? = some e
  only : ∀ i e, built[i]? = some e → ∃ n ∈ rows, n.number = i

theorem holds_nil (source : Source) : Holds source ∅ [] where
  all := List.forall_mem_nil _
  only i e found := by simp at found

/-- One row more. -/
theorem Holds.insert {source : Source} {built : Table} {rows : List Numbered}
    (holds : built.Holds source rows) {n : Numbered} {e : Expr}
    (made : convert source n.tree = .ok e) (distinct : ∀ m ∈ rows, m.number = n.number → m = n) :
    Holds source (built.insert n.number e) (n :: rows) where
  all := by
    refine List.forall_mem_cons.2 ⟨⟨e, made, by simp⟩, fun m inside => ?_⟩
    obtain ⟨e', made', found⟩ := holds.all m inside
    by_cases same : m.number = n.number
    · cases distinct m inside same
      exact ⟨e, made, by simp⟩
    · refine ⟨e', made', ?_⟩
      rw [Std.HashMap.getElem?_insert, if_neg (by simpa using Ne.symm same), found]
  only i e' found := by
    rw [Std.HashMap.getElem?_insert] at found
    split at found
    case isTrue same => exact ⟨n, List.mem_cons_self, eq_of_beq same⟩
    case isFalse =>
        obtain ⟨m, inside, isNumber⟩ := holds.only i e' found
        exact ⟨m, List.mem_cons_of_mem _ inside, isNumber⟩

end Table

namespace Expr

/-- The expression of a row of arguments has the arguments inside. -/
theorem children_of_arguments {source : Source} {a : Tree} {e : Expr} (isArguments : a.kind = .arguments)
    (made : convert source a = .ok e) :
    List.Forall₂ (fun u e => convert source u = .ok e) a.visible e.children := by
  obtain ⟨below, converted, built⟩ := (convert_eq_ok_iff source a e).1 made
  have branch : a.pending = a.visible := by simp [Tree.pending, isArguments, Kind.isLeaf, Kind.isName]
  simp only [assemble, isArguments, Kind.isName, Bool.false_eq_true, if_false] at built
  cases built
  rw [branch] at converted
  exact converted

/-- The substitutions of a template are converted like all rows below it. -/
theorem holes_converted {source : Source} {us : List Tree}
    (each : ∀ u ∈ us, u.isVisible = true → ∃ e, convert source u = .ok e) :
    List.Forall₂ (fun u e => convert source u = .ok e)
      ((us.filter Tree.isVisible).filter fun u => u.kind = .substitution)
      ((us.map fun u => (u, part source u)).filterMap fun part =>
        if part.1.kind = .substitution then part.2 else none) := by
  induction us with
  | nil => exact .nil
  | cons u us ih =>
      obtain ⟨first, more⟩ := List.forall_mem_cons.1 each
      rw [List.map_cons, List.filterMap_cons, List.filter_cons]
      cases visible : u.isVisible with
      | false =>
          rw [if_neg Bool.false_ne_true, part_of_hidden visible, ite_self]
          exact ih more
      | true =>
          obtain ⟨e, made⟩ := first visible
          rw [if_pos rfl, List.filter_cons, part_eq_some_iff.2 ⟨visible, made⟩]
          by_cases isHole : u.kind = .substitution
          · simp only [isHole, if_true, decide_true]
            exact .cons made (ih more)
          · simp only [isHole, if_false, decide_false]
            exact ih more

end Expr

/-- The turn of a row: what comes after it in the order of the stack is in the table. -/
structure Turn (source : Source) (root n : Numbered) (after : List Numbered) (built : Table) : Prop where
  distinct : root.Distinct
  listed : n :: after <:+ root.order
  holds : built.Holds source after

namespace Turn

variable {source : Source} {root n : Numbered} {after : List Numbered} {built : Table}
  (turn : Turn source root n after built)

include turn

theorem mem_order : n ∈ root.order := turn.listed.subset List.mem_cons_self

theorem mem_rows : n ∈ root.rows := root.order_subset_rows turn.mem_order

theorem after_subset : after ⊆ root.order :=
  fun _ inside => turn.listed.subset (List.mem_cons_of_mem _ inside)

theorem eq_of_number {m m' : Numbered} (inside : m ∈ after) (isRow : m' ∈ root.rows)
    (same : m.number = m'.number) : m = m' :=
  turn.distinct.eq_of_number (root.order_subset_rows (turn.after_subset inside)) isRow same

theorem pending_subset : n.pending ⊆ after := turn.distinct.pending_subset_after turn.listed

theorem pending_subset_of_mem {m : Numbered} (inside : m ∈ after) : m.pending ⊆ after := by
  obtain ⟨earlier, later, rfl⟩ := List.append_of_mem inside
  have listed : m :: later <:+ root.order :=
    (List.suffix_append (n :: earlier) (m :: later)).trans turn.listed
  intro c waits
  have comes := turn.distinct.pending_subset_after listed waits
  exact List.mem_append_right _ (List.mem_cons_of_mem _ comes)

/-- Nothing stands under the number of a row that is not converted. -/
theorem lookup_unlisted {m : Numbered} (isRow : m ∈ root.rows) (unlisted : m ∉ root.order) :
    built[m.number]? = none := by
  cases found : built[m.number]? with
  | none => rfl
  | some e =>
      obtain ⟨m', inside, same⟩ := turn.holds.only m.number e found
      cases turn.eq_of_number inside isRow same
      exact absurd (turn.after_subset inside) unlisted

theorem visible_subset (branch : n.kind.isLeaf = false) : n.visible ⊆ after := by
  rw [← Numbered.pending_of_branch branch]
  exact turn.pending_subset

/-- Under the number of a child stands what the child contributes, if anything. -/
theorem lookup_child (branch : n.kind.isLeaf = false) {c : Numbered} (below : c ∈ n.children) :
    built[c.number]? = part source c.tree := by
  cases visible : c.isVisible with
  | true =>
      have inside := turn.visible_subset branch (List.mem_filter.2 ⟨below, visible⟩)
      obtain ⟨e, made, found⟩ := turn.holds.all c inside
      rw [found, Expr.part_eq_some_iff.2 ⟨visible, made⟩]
  | false =>
      rw [Expr.part_of_hidden visible]
      refine turn.lookup_unlisted (Numbered.mem_rows_of_mem_children turn.mem_rows below) ?_
      intro inside
      have waits := (turn.distinct.mem_pending_of_mem_order turn.mem_rows below inside).2
      exact absurd (Numbered.isVisible_of_mem_pending waits) (Bool.eq_false_iff.1 visible)

/-- Nor does anything stand under the number of a row below a child that is not visible. -/
theorem lookup_grandchild {a c : Numbered} (isChild : a ∈ n.children)
    (hidden : a.isVisible = false) (below : c ∈ a.children) : built[c.number]? = none := by
  have isRow := Numbered.mem_rows_of_mem_children turn.mem_rows isChild
  refine turn.lookup_unlisted (Numbered.mem_rows_of_mem_children isRow below) ?_
  intro inside
  have above := (turn.distinct.mem_pending_of_mem_order isRow below inside).1
  have waits := (turn.distinct.mem_pending_of_mem_order turn.mem_rows isChild above).2
  exact absurd (Numbered.isVisible_of_mem_pending waits) (Bool.eq_false_iff.1 hidden)

/-! ### What the row reads -/

/-- Rows that have been worked off are read one by one. -/
theorem read_of_converted {ns : List Numbered} {es : List Expr} (inside : ns ⊆ after)
    (converted : List.Forall₂ (fun u e => convert source u = .ok e) (ns.map Numbered.tree) es) :
    List.Forall₂ (fun c e => built.read c = .ok e ∧ convert source c.tree = .ok e) ns es := by
  rw [List.forall₂_map_left_iff] at converted
  induction converted with
  | nil => exact .nil
  | @cons c e ns es first _ ih =>
      obtain ⟨e', made, found⟩ := turn.holds.all c (inside List.mem_cons_self)
      cases first.symm.trans made
      exact .cons ⟨Table.read_eq_ok_iff.2 found, made⟩
        (ih fun m isRow => inside (List.mem_cons_of_mem _ isRow))

theorem readAll_of_converted {ns : List Numbered} {es : List Expr} (inside : ns ⊆ after)
    (converted : List.Forall₂ (fun u e => convert source u = .ok e) (ns.map Numbered.tree) es) :
    built.readAll ns = .ok es :=
  Outcome.mapM_eq_ok_iff.2 ((turn.read_of_converted inside converted).imp fun _ _ both => both.1)

theorem child?_tree (field : Field) : n.tree.child? field = (n.child? field).map Numbered.tree := by
  rw [Tree.child?, ← turn.distinct.children n turn.mem_rows, List.find?_map, Numbered.child?]
  rfl

theorem inRole_eq (branch : n.kind.isLeaf = false) (field : Field) :
    built.inRole n field = Expr.inRole (n.tree.children.map fun u => (u, part source u)) field := by
  rw [Table.inRole, Expr.inRole, Expr.find?_role, turn.child?_tree]
  cases child : n.child? field with
  | none => rfl
  | some c => simp [turn.lookup_child branch (List.mem_of_find?_eq_some child)]

/-- The arguments of a call stand one row further down.  They are there if the row in that role has been
worked off. -/
theorem readAll_arguments {a : Numbered} (inside : a ∈ after) {e : Expr}
    (made : convert source a.tree = .ok e) :
    built.readAll (if a.kind = .arguments then a.visible else [a]) =
      .ok (if a.kind = .arguments then e.children else [e]) := by
  by_cases isArguments : a.kind = .arguments
  · have leads : a.visible ⊆ after := by
      rw [← Numbered.pending_of_branch (by rw [isArguments]; rfl)]
      exact turn.pending_subset_of_mem inside
    have converted := Expr.children_of_arguments isArguments made
    have isRow := root.order_subset_rows (turn.after_subset inside)
    rw [← turn.distinct.map_tree_visible isRow] at converted
    rw [if_pos isArguments, if_pos isArguments]
    exact turn.readAll_of_converted leads converted
  · rw [if_neg isArguments, if_neg isArguments]
    exact turn.readAll_of_converted (by simpa using inside) (.cons made .nil)

/-- If the row in that role is not visible, nothing below it can be read either. -/
theorem readAll_arguments_of_hidden (branch : n.kind.isLeaf = false) {a : Numbered}
    (below : a ∈ n.children) (hidden : a.isVisible = false) :
    built.readAll (if a.kind = .arguments then a.visible else [a]) =
      if a.kind = .arguments ∧ a.visible = [] then .ok [] else .error .unconvertedChild := by
  by_cases isArguments : a.kind = .arguments
  · rw [if_pos isArguments]
    cases inner : a.visible with
    | nil => rw [if_pos ⟨isArguments, rfl⟩]; rfl
    | cons c more =>
        have isChild : c ∈ a.children := by
          have isVisible : c ∈ a.visible := by
            rw [inner]
            exact List.mem_cons_self
          exact List.mem_of_mem_filter isVisible
        have absent := turn.lookup_grandchild below hidden isChild
        rw [if_neg (by simp), Table.readAll_of_absent absent]
  · have absent := turn.lookup_child branch below
    rw [Expr.part_of_hidden hidden] at absent
    rw [if_neg isArguments, if_neg fun both => isArguments both.1, Table.readAll_of_absent absent]

theorem readArguments_eq (isCall : n.kind = .call) :
    Expr.readArguments built n =
      Expr.callArguments (n.tree.children.map fun u => (u, part source u)) := by
  have branch : n.kind.isLeaf = false := by rw [isCall]; rfl
  rw [Expr.readArguments, Expr.callArguments, Expr.find?_role, turn.child?_tree]
  cases child : n.child? .arguments with
  | none => rfl
  | some a =>
      have below : a ∈ n.children := List.mem_of_find?_eq_some child
      cases visible : a.isVisible with
      | true =>
          have inside := turn.visible_subset branch (List.mem_filter.2 ⟨below, visible⟩)
          obtain ⟨e, made, -⟩ := turn.holds.all a inside
          have contributes : part source a.tree = some e :=
            Expr.part_eq_some_iff.2 ⟨visible, made⟩
          simp only [Option.map_some, contributes]
          exact turn.readAll_arguments inside made
      | false =>
          have isRow := Numbered.mem_rows_of_mem_children turn.mem_rows below
          have bare : a.tree.visible = [] ↔ a.visible = [] := by
            rw [← turn.distinct.map_tree_visible isRow, List.map_eq_nil_iff]
          simp only [Option.map_some, Expr.part_of_hidden visible, bare]
          exact turn.readAll_arguments_of_hidden branch below visible

/-- The substitutions of a template, in the table and among the expressions below. -/
theorem readAll_holes (branch : n.kind.isLeaf = false) :
    built.readAll (n.visible.filter fun c => c.kind = .substitution) =
      .ok ((n.tree.children.map fun u => (u, part source u)).filterMap fun part =>
        if part.1.kind = .substitution then part.2 else none) := by
  have leads := turn.visible_subset branch
  apply turn.readAll_of_converted
  · exact fun c inside => leads (List.mem_of_mem_filter inside)
  · have holes := @Expr.holes_converted source n.tree.children ?_
    · rw [← Tree.visible, ← turn.distinct.map_tree_visible turn.mem_rows, List.filter_map] at holes
      exact holes
    · intro u isChild visible
      rw [← turn.distinct.children n turn.mem_rows] at isChild
      obtain ⟨c, below, rfl⟩ := List.mem_map.1 isChild
      obtain ⟨e, made, -⟩ := turn.holds.all c (leads (List.mem_filter.2 ⟨below, visible⟩))
      exact ⟨e, made⟩

omit turn in
/-- A leaf reads nothing. -/
theorem build_of_leaf (leaf : n.tree.kind.isLeaf = true) (rows : built.readAll n.pending = .ok []) :
    Expr.build source built n = Expr.assemble source n.tree [] := by
  unfold Expr.build Expr.assemble
  simp only [rows]
  cases isKind : n.tree.kind with
  | string | number | regex | stringFragment | escapeSequence | this | super | importToken
  | trueToken | falseToken | nullToken | undefinedToken | hashBang | identifier
  | propertyIdentifier | privatePropertyIdentifier | shorthandIdentifier | shorthandPattern
  | statementIdentifier => rfl
  | _ => simp [isKind, Kind.isLeaf, Kind.isName] at leaf

theorem build_of_branch (branch : n.kind.isLeaf = false) {below : List Expr}
    (converted : List.Forall₂ (fun u e => convert source u = .ok e) n.tree.pending below)
    (rows : built.readAll n.pending = .ok below) :
    Expr.build source built n = Expr.assemble source n.tree below := by
  have aligned := Expr.align_of_converted branch converted
  have unnamed : ¬ n.tree.kind.isName = true := by
    intro isName
    have isLeaf : n.kind.isLeaf = true := Expr.isLeaf_of_isName isName
    rw [isLeaf] at branch
    cases branch
  unfold Expr.build Expr.assemble
  simp only [rows, aligned, turn.inRole_eq branch, if_neg unnamed, Outcome.ok_bind]
  cases isKind : n.tree.kind with
  | template =>
      have holes := turn.readAll_holes branch
      simp only
      generalize n.visible.filter _ = holed, List.filterMap _ _ = filled at holes ⊢
      have each := Outcome.mapM_eq_ok_iff.1 holes
      cases each with
      | nil => rfl
      | cons first more =>
          simp only [holes, Outcome.ok_bind]
          rfl
  | array =>
      simp only
      rw [← Numbered.pending_of_branch branch, rows]
      rfl
  | call =>
      simp only
      rw [turn.readArguments_eq isKind]
  | parenthesized =>
      have each := Outcome.mapM_eq_ok_iff.1 rows
      rw [Numbered.pending_of_branch branch] at each
      rw [← turn.distinct.map_tree_visible turn.mem_rows]
      simp only
      generalize n.visible = inside at each ⊢
      cases each with
      | nil => rfl
      | cons first more =>
          simp only [first, List.map_cons]
          rfl
  | _ => rfl

/-- **A row is built from its own children.**  What is built from the table is what is assembled from
the expressions of the rows below. -/
theorem build_eq_assemble {below : List Expr}
    (converted : List.Forall₂ (fun u e => convert source u = .ok e) n.tree.pending below) :
    Expr.build source built n = Expr.assemble source n.tree below := by
  have rows : built.readAll n.pending = .ok below := by
    apply turn.readAll_of_converted turn.pending_subset
    rw [turn.distinct.map_tree_pending turn.mem_rows]
    exact converted
  cases branch : n.kind.isLeaf with
  | true =>
      have isLeaf : n.tree.kind.isLeaf = true := branch
      rw [Tree.pending, isLeaf, if_pos rfl] at converted
      cases List.forall₂_nil_left_iff.1 converted
      exact build_of_leaf isLeaf rows
  | false => exact turn.build_of_branch branch converted rows

theorem build_eq_convert : Expr.build source built n = convert source n.tree := by
  obtain ⟨below, converted⟩ : ∃ below,
      List.Forall₂ (fun u e => convert source u = .ok e) n.tree.pending below := by
    refine Outcome.exists_forall₂_iff.2 fun u inside => ?_
    rw [← turn.distinct.map_tree_pending turn.mem_rows] at inside
    obtain ⟨c, waits, rfl⟩ := List.mem_map.1 inside
    obtain ⟨e, made, -⟩ := turn.holds.all c (turn.pending_subset waits)
    exact ⟨e, made⟩
  rw [turn.build_eq_assemble converted, Expr.convert_eq, Outcome.mapM_eq_ok_iff.2 converted,
    Outcome.ok_bind]

/-- After its turn the row is in the table. -/
theorem holds_insert {e : Expr} (made : convert source n.tree = .ok e) :
    Table.Holds source (built.insert n.number e) (n :: after) :=
  turn.holds.insert made fun _ inside same => turn.eq_of_number inside turn.mem_rows same

/-- Whatever is read under the number of a row is the expression of that row. -/
theorem convert_of_lookup {m : Numbered} (isRow : m ∈ root.rows) {e : Expr}
    (found : built[m.number]? = some e) : convert source m.tree = .ok e := by
  obtain ⟨m', inside, same⟩ := turn.holds.only m.number e found
  cases turn.eq_of_number inside isRow same
  obtain ⟨e', made, found'⟩ := turn.holds.all m inside
  cases found.symm.trans found'
  exact made

end Turn

namespace Expr

variable {source : Source}

/-- **The run.**  Working off rows from the end of the order fills the table with their expressions,
or one of them has none. -/
theorem foldlM_store {root : Numbered} (distinct : root.Distinct) {after : List Numbered}
    (listed : after <:+ root.order) :
    (∃ built, after.reverse.foldlM (store source) ∅ = .ok built ∧ built.Holds source after) ∨
      ∃ failure, after.reverse.foldlM (store source) ∅ = .error failure ∧
        ∃ n ∈ after, convert source n.tree = .error failure := by
  induction after with
  | nil => exact .inl ⟨∅, rfl, Table.holds_nil source⟩
  | cons n after ih =>
      rw [List.reverse_cons, List.foldlM_append]
      rcases ih ((List.suffix_cons n after).trans listed) with
        ⟨built, run, holds⟩ | ⟨failure, run, m, inside, fails⟩
      · have turn : Turn source root n after built := ⟨distinct, listed, holds⟩
        rw [run, Outcome.ok_bind, List.foldlM_cons, store, turn.build_eq_convert]
        cases made : convert source n.tree with
        | ok e => exact .inl ⟨_, rfl, turn.holds_insert made⟩
        | error failure => exact .inr ⟨failure, rfl, n, List.mem_cons_self, made⟩
      · rw [run]
        exact .inr ⟨failure, rfl, m, List.mem_cons_of_mem _ inside, fails⟩

theorem exists_convert_of_mem_order {root : Numbered} (distinct : root.Distinct) {e : Expr}
    (made : convert source root.tree = .ok e) :
    ∀ n ∈ root.order, n ∈ root.rows ∧ ∃ e', convert source n.tree = .ok e' := by
  refine forall_mem_drain ?_ (by simpa using ⟨root.self_mem_rows, e, made⟩)
  rintro n ⟨isRow, e', made'⟩ c waits
  refine ⟨Numbered.pending_rows n isRow c waits, exists_convert_of_mem_pending made' ?_⟩
  rw [← distinct.map_tree_pending isRow]
  exact List.mem_map_of_mem waits

/-- If the tree has an expression, no row stops the run. -/
theorem exists_table {root : Numbered} (distinct : root.Distinct) {e : Expr}
    (made : convert source root.tree = .ok e) {after : List Numbered} (listed : after <:+ root.order) :
    ∃ built, after.reverse.foldlM (store source) ∅ = .ok built ∧ built.Holds source after := by
  rcases foldlM_store distinct listed with done | ⟨failure, -, n, inside, fails⟩
  · exact done
  · obtain ⟨-, e', made'⟩ := exists_convert_of_mem_order distinct made n (listed.subset inside)
    cases fails.symm.trans made'

/-- The conversion is the recursion behind it. -/
theorem ofTree_eq_convert (source : Source) (t : Tree) : ofTree source t = convert source t := by
  have distinct := Numbered.distinct_numbered t
  have top : t.numbered.tree = t := Tree.tree_numberFrom 0 t
  rw [ofTree]
  rcases @foldlM_store source _ distinct _ List.suffix_rfl with
    ⟨built, run, holds⟩ | ⟨failure, run, n, inside, fails⟩
  · obtain ⟨e, made, found⟩ := holds.all t.numbered t.numbered.self_mem_order
    rw [run, Outcome.ok_bind, Table.read_eq_ok_iff.2 found, ← made, top]
  · rw [run, Outcome.error_bind]
    cases made : convert source t with
    | error failure' => rw [convert_eq_error fails, convert_eq_error made]
    | ok e =>
        rw [← top] at made
        obtain ⟨built, done, -⟩ := exists_table distinct made List.suffix_rfl
        cases run.symm.trans done

end Expr

end HiddenLoads
