/-
# HiddenLoads.Proofs.SiteOrder -- the conversion keeps the order of the rows

A load is written as a call or as a declaration with a source.  `Tree.sites` lists the rows of
these kinds in the order of the tree, `Expr.sites` the spans of the expressions that they may
become.  The conversion drops rows, picks others by their role and takes parentheses away, but it
never changes the order of what it keeps: if the roles stand in the order of the grammar, the
sites of the expression are a sublist of those of the tree (`Expr.sites_sublist_of_convert`).

Where a row keeps two of its children, the order of the two is the only thing that can go wrong
(`Tree.roles_sublist`).
-/
import HiddenLoads.Proofs.Trivia
import HiddenLoads.Proofs.Visit
import Mathlib.Data.List.Flatten

namespace HiddenLoads

set_option autoImplicit false

open scoped List

/-- Roles of two rows under one parent, as the grammar orders them. -/
def Field.inOrder : List (Field × Field) :=
  [(.function, .arguments), (.left, .right), (.object, .property), (.object, .index),
    (.declared, .value)]

theorem Field.ne_of_inOrder : ∀ roles ∈ Field.inOrder, roles.1 ≠ roles.2 := by decide

namespace Tree

/-! ## The rows in order -/

def rows (t : Tree) : List Tree := t :: t.subtrees

/-- The row is a call, or it imports or exports. -/
def isSite (t : Tree) : Bool :=
  match t.kind with
  | .call | .importStatement | .exportStatement => true
  | _ => false

/-- The rows that loads can be written as, in the order of the tree. -/
def sites (t : Tree) : List Tree := t.rows.filter isSite

def RolesInOrder (t : Tree) : Prop :=
  ∀ r ∈ t.rows, ∀ roles ∈ Field.inOrder,
    r.children.Pairwise fun u v => ¬ (u.row.field = roles.2 ∧ v.row.field = roles.1)

instance (t : Tree) : Decidable t.RolesInOrder :=
  inferInstanceAs (Decidable (∀ r ∈ t.rows, ∀ roles ∈ Field.inOrder,
    r.children.Pairwise fun u v => ¬ (u.row.field = roles.2 ∧ v.row.field = roles.1)))

theorem subtreesAll_eq (ts : List Tree) : subtreesAll ts = ts.flatMap rows := by
  induction ts with
  | nil => rfl
  | cons t ts ih => rw [subtreesAll, ih, List.flatMap_cons, rows, List.cons_append]

theorem rows_eq (t : Tree) : t.rows = t :: t.children.flatMap rows := by
  obtain ⟨row, children⟩ := t
  rw [rows, subtrees, subtreesAll_eq]
  rfl

theorem self_mem_rows (t : Tree) : t ∈ t.rows := List.mem_cons_self

theorem rows_subset_of_mem_children {t u : Tree} (isChild : u ∈ t.children) : u.rows ⊆ t.rows := by
  intro r isRow
  rw [rows_eq]
  exact List.mem_cons_of_mem _ (List.mem_flatMap.2 ⟨u, isChild, isRow⟩)

theorem size_lt_of_mem_children {t u : Tree} (isChild : u ∈ t.children) : u.size < t.size := by
  rw [size_eq t]
  exact Nat.lt_succ_of_le (size_le_sizeAll isChild)

theorem sites_eq (t : Tree) :
    t.sites = (if t.isSite then [t] else []) ++ t.children.flatMap sites := by
  have below : (t.children.flatMap rows).filter isSite = t.children.flatMap sites := by
    rw [List.filter_flatMap]
    rfl
  rw [sites, rows_eq, List.filter_cons, below]
  cases t.isSite <;> rfl

theorem RolesInOrder.child {t u : Tree} (inOrder : t.RolesInOrder) (isChild : u ∈ t.children) :
    u.RolesInOrder :=
  fun r isRow => inOrder r (rows_subset_of_mem_children isChild isRow)

/-- The children in two roles stand in the order of the roles. -/
theorem roles_sublist {first second : Field} (different : first ≠ second) {us : List Tree}
    (inOrder : us.Pairwise fun u v => ¬ (u.row.field = second ∧ v.row.field = first)) :
    (us.find? fun u => u.row.field = first).toList ++
      (us.find? fun u => u.row.field = second).toList <+ us := by
  have single (field : Field) (us : List Tree) :
      (us.find? fun u => u.row.field = field).toList <+ us := by
    cases found : us.find? fun u => u.row.field = field with
    | none => exact List.nil_sublist us
    | some u => exact List.singleton_sublist.2 (List.mem_of_find?_eq_some found)
  induction us with
  | nil => exact List.nil_sublist []
  | cons u us ih =>
      obtain ⟨here, inOrder⟩ := List.pairwise_cons.1 inOrder
      by_cases isFirst : u.row.field = first
      · have other : ¬ u.row.field = second := fun isSecond =>
          different (isFirst.symm.trans isSecond)
        rw [List.find?_cons_of_pos (by simpa using isFirst),
          List.find?_cons_of_neg (by simpa using other)]
        exact (single second us).cons_cons u
      by_cases isSecond : u.row.field = second
      · -- What stands behind the second role is not in the first one.
        have vacant : us.find? (fun v => v.row.field = first) = none := by
          rw [List.find?_eq_none]
          intro v inside isFirst'
          exact here v inside ⟨isSecond, by simpa using isFirst'⟩
        rw [List.find?_cons_of_neg (by simpa using isFirst), vacant]
        exact single second (u :: us)
      · rw [List.find?_cons_of_neg (by simpa using isFirst),
          List.find?_cons_of_neg (by simpa using isSecond)]
        exact (ih inOrder).cons u

end Tree

namespace Expr

/-! ## What a row keeps, in order -/

/-- The spans of the expressions that loads can be written as, in the order of a pass. -/
def sites (e : Expr) : List Span := (e.within.filter isSite).map span

def rowSpan (source : Source) (t : Tree) : Span := source.span t.row.start t.row.stop

theorem withinAll_eq (es : List Expr) : withinAll es = es.flatMap within := by
  induction es with
  | nil => rfl
  | cons e es ih => rw [withinAll, ih, List.flatMap_cons]

theorem sites_eq (e : Expr) :
    e.sites = (if e.isSite then [e.span] else []) ++ e.children.flatMap sites := by
  have below : ((withinAll e.children).filter isSite).map span = e.children.flatMap sites := by
    rw [withinAll_eq, List.filter_flatMap, List.map_flatMap]
    rfl
  rw [sites, within_eq, List.filter_cons]
  cases e.isSite with
  | false => exact below
  | true => exact congrArg (e.span :: ·) below

theorem sites_of_not_site {e : Expr} (other : e.isSite = false) :
    e.sites = e.children.flatMap sites := by
  rw [sites_eq, other]
  rfl

section Row

variable {source : Source} {t : Tree} {below : List Expr}

/-- The expressions that a row keeps, in order: none, all, those in one role or in two roles, a
callee with its arguments, or the substitutions of a template. -/
inductive Keeps (source : Source) (t : Tree) (below : List Expr) : List Expr → Prop
  | none : Keeps source t below []
  | all : Keeps source t below below
  | role (field : Field) :
      Keeps source t below [inRole (t.children.map fun u => (u, part source u)) field]
  | roles {first second : Field} (inOrder : (first, second) ∈ Field.inOrder) :
      Keeps source t below
        [inRole (t.children.map fun u => (u, part source u)) first,
          inRole (t.children.map fun u => (u, part source u)) second]
  | call {arguments : List Expr}
      (found : callArguments (t.children.map fun u => (u, part source u)) = .ok arguments) :
      Keeps source t below
        (inRole (t.children.map fun u => (u, part source u)) .function :: arguments)
  | holes : Keeps source t below ((t.children.map fun u => (u, part source u)).filterMap fun part =>
      if part.1.kind = .substitution then part.2 else Option.none)

/-- A row passes on an expression from below, or makes one of what it keeps; only a row that loads
can be written as makes such an expression, which then stands where the row does. -/
theorem keeps_of_assemble (branch : t.kind.isLeaf = false)
    (aligned : align t.children below = t.children.map fun u => (u, part source u)) {e : Expr}
    (built : assemble source t below = .ok e) :
    e ∈ below ∨ Keeps source t below e.children ∧
      (e.isSite = true → t.isSite = true ∧ e.span = rowSpan source t) := by
  have unnamed : ¬ t.kind.isName = true := fun isName => by
    rw [isLeaf_of_isName isName] at branch
    cases branch
  unfold assemble at built
  simp only [aligned, if_neg unnamed] at built
  cases isKind : t.kind with
  | template =>
      simp only [isKind] at built
      split at built
      · cases built
        exact .inr ⟨.none, nofun⟩
      · cases built
        exact .inr ⟨.holes, nofun⟩
  | binary | assignment | augmentedAssignment | member | subscript =>
      simp only [isKind] at built
      cases built
      exact .inr ⟨.roles (by simp [Field.inOrder]), nofun⟩
  | call =>
      simp only [isKind] at built
      obtain ⟨arguments, found, built⟩ := Outcome.bind_eq_ok_iff.1 built
      cases built
      exact .inr ⟨.call found, fun _ => ⟨by rw [Tree.isSite, isKind], rfl⟩⟩
  | parenthesized =>
      simp only [isKind] at built
      split at built
      · split at built
        · cases built
          exact .inr ⟨.all, nofun⟩
        · cases built
          exact .inl List.mem_cons_self
      · cases built
        exact .inr ⟨.all, nofun⟩
  | objectPattern =>
      simp only [isKind] at built
      cases built
      exact .inr ⟨.none, nofun⟩
  | declarator =>
      simp only [isKind] at built
      split at built
      · cases built
        exact .inr ⟨.role .declared, nofun⟩
      · cases built
        exact .inr ⟨.roles (by simp [Field.inOrder]), nofun⟩
  | importStatement | exportStatement =>
      simp only [isKind] at built
      split at built
      · cases built
        exact .inr ⟨.all, nofun⟩
      · cases built
        exact .inr ⟨.role .source, fun _ => ⟨by rw [Tree.isSite, isKind], rfl⟩⟩
  | array | substitution | arguments | sequence | arrayPattern | pairPattern | defaultPattern
  | comment | htmlComment | other =>
      simp only [isKind] at built
      cases built
      exact .inr ⟨.all, nofun⟩
  | _ =>
      rw [isKind] at branch
      cases branch

def partSites (source : Source) (u : Tree) : List Span := ((part source u).toList).flatMap sites

/-- The sites of what stands in a role are those of the first child in that role. -/
theorem sites_inRole (field : Field) :
    (inRole (t.children.map fun u => (u, part source u)) field).sites =
      (t.child? field).toList.flatMap (partSites source) := by
  rw [inRole, find?_role]
  cases child : t.child? field with
  | none => rfl
  | some u =>
      cases made : part source u with
      | none => simp [partSites, made, sites, within, isSite]
      | some e => simp [partSites, made]

theorem not_isSite_of_arguments {u : Tree} {e : Expr} (isArguments : u.kind = .arguments)
    (made : convert source u = .ok e) : e.isSite = false := by
  obtain ⟨below, _, built⟩ := (convert_eq_ok_iff source u e).1 made
  simp only [assemble, isArguments, Kind.isName, Bool.false_eq_true, if_false] at built
  cases built
  rfl

/-- The sites of the arguments of a call are those of the row in that role. -/
theorem sites_arguments {arguments : List Expr}
    (found : callArguments (t.children.map fun u => (u, part source u)) = .ok arguments) :
    arguments.flatMap sites = (t.child? .arguments).toList.flatMap (partSites source) := by
  rw [callArguments, find?_role] at found
  cases child : t.child? .arguments with
  | none =>
      rw [child] at found
      cases found
      rfl
  | some u =>
      rw [child, Option.map_some] at found
      cases made : part source u with
      | none =>
          rw [made] at found
          simp only at found
          split at found <;> cases found
          simp [partSites, made]
      | some e =>
          rw [made] at found
          cases found
          split
          case isTrue isArguments =>
              have other := not_isSite_of_arguments isArguments (part_eq_some_iff.1 made).2
              simp [partSites, made, sites_of_not_site other]
          case isFalse => simp [partSites, made]

/-- The sites of a template with substitutions are those of the substitutions. -/
theorem sites_holes (us : List Tree) :
    ((us.map fun u => (u, part source u)).filterMap fun part =>
        if part.1.kind = .substitution then part.2 else none).flatMap sites =
      us.flatMap fun u => if u.kind = .substitution then partSites source u else [] := by
  induction us with
  | nil => rfl
  | cons u us ih =>
      rw [List.flatMap_cons, ← ih, List.map_cons, List.filterMap_cons]
      by_cases isHole : u.kind = .substitution
      · cases made : part source u <;> simp [partSites, isHole, made]
      · simp [isHole]

/-- Children that are kept in order contribute their sites in order. -/
theorem partSites_sublist
    (inside : ∀ u ∈ t.children, ∀ e, convert source u = .ok e →
      e.sites <+ u.sites.map (rowSpan source))
    {us : List Tree} (kept : us <+ t.children) :
    us.flatMap (partSites source) <+ (t.children.flatMap Tree.sites).map (rowSpan source) := by
  rw [List.map_flatMap]
  have each : ∀ u ∈ us, partSites source u <+ u.sites.map (rowSpan source) := by
    intro u isKept
    rw [partSites]
    cases made : part source u with
    | none => exact List.nil_sublist _
    | some e =>
        simpa using inside u (kept.subset isKept) e (part_eq_some_iff.1 made).2
  exact (List.Sublist.flatMap_right us each).trans (kept.flatMap _)

/-- The expressions below contribute the sites of their rows. -/
theorem below_sites_eq (branch : t.kind.isLeaf = false)
    (converted : List.Forall₂ (fun u e => convert source u = .ok e) t.pending below) :
    below.flatMap sites = t.visible.flatMap (partSites source) := by
  rw [Tree.pending, branch, if_neg Bool.false_ne_true] at converted
  have visible : ∀ u ∈ t.visible, u.isVisible = true := fun u => List.of_mem_filter
  generalize t.visible = us at converted visible
  induction converted with
  | nil => rfl
  | @cons u e us es made _ ih =>
      have shown := visible u List.mem_cons_self
      have contributes : part source u = some e := part_eq_some_iff.2 ⟨shown, made⟩
      have rest := ih fun v inside => visible v (List.mem_cons_of_mem u inside)
      simp [partSites, contributes, rest]

/-- Whatever a row keeps, it keeps in the order of the tree. -/
theorem Keeps.sites_sublist {kept : List Expr} (keeps : Keeps source t below kept)
    (branch : t.kind.isLeaf = false) (inOrder : t.RolesInOrder)
    (converted : List.Forall₂ (fun u e => convert source u = .ok e) t.pending below)
    (inside : ∀ u ∈ t.children, ∀ e, convert source u = .ok e →
      e.sites <+ u.sites.map (rowSpan source)) :
    kept.flatMap sites <+ (t.children.flatMap Tree.sites).map (rowSpan source) := by
  have ordered {first second : Field} (isPair : (first, second) ∈ Field.inOrder) :
      (t.child? first).toList ++ (t.child? second).toList <+ t.children :=
    Tree.roles_sublist (Field.ne_of_inOrder _ isPair) (inOrder t t.self_mem_rows _ isPair)
  cases keeps with
  | none => exact List.nil_sublist _
  | all =>
      rw [below_sites_eq branch converted]
      exact partSites_sublist inside List.filter_sublist
  | role field =>
      rw [List.flatMap_singleton, sites_inRole]
      apply partSites_sublist inside
      cases child : t.child? field with
      | none => exact List.nil_sublist _
      | some u => exact List.singleton_sublist.2 (List.mem_of_find?_eq_some child)
  | roles isPair =>
      rw [List.flatMap_cons, List.flatMap_singleton, sites_inRole, sites_inRole,
        ← List.flatMap_append]
      exact partSites_sublist inside (ordered isPair)
  | call found =>
      rw [List.flatMap_cons, sites_inRole, sites_arguments found, ← List.flatMap_append]
      exact partSites_sublist inside (ordered (by simp [Field.inOrder]))
  | holes =>
      rw [sites_holes]
      refine .trans (List.Sublist.flatMap_right _ fun u _ => ?_)
        (partSites_sublist inside (List.Sublist.refl _))
      split
      · exact List.Sublist.refl _
      · exact List.nil_sublist _

/-- One row: its own site comes before those of the rows below it. -/
theorem sites_sublist_of_row (inOrder : t.RolesInOrder)
    (inside : ∀ u ∈ t.children, ∀ e, convert source u = .ok e →
      e.sites <+ u.sites.map (rowSpan source)) {e : Expr} (made : convert source t = .ok e) :
    e.sites <+ t.sites.map (rowSpan source) := by
  obtain ⟨below, converted, built⟩ := (convert_eq_ok_iff source t e).1 made
  rw [Tree.sites_eq, List.map_append]
  cases branch : t.kind.isLeaf with
  | true =>
      obtain ⟨notCall, empty⟩ := eq_nil_of_leaf branch made
      have other : e.isSite = false := by
        cases e with
        | call => cases notCall
        | importFrom => cases empty
        | _ => rfl
      rw [sites_of_not_site other, empty]
      exact List.nil_sublist _
  | false =>
      rcases keeps_of_assemble branch (align_of_converted branch converted) built with
        passed | ⟨keeps, site⟩
      · -- Parentheses have the sites of what stands in them.
        obtain ⟨u, isBelow, made'⟩ := (Outcome.mem_iff_of_forall₂ converted e).1 passed
        rw [Tree.pending, branch, if_neg Bool.false_ne_true] at isBelow
        have isChild : u ∈ t.children := List.mem_of_mem_filter isBelow
        have among : u.sites <+ t.children.flatMap Tree.sites := by
          simpa using (List.singleton_sublist.2 isChild).flatMap Tree.sites
        exact (inside u isChild e made').trans
          ((among.map _).trans (List.sublist_append_right _ _))
      · rw [sites_eq]
        refine .append ?_ (keeps.sites_sublist branch inOrder converted inside)
        cases isSite : e.isSite with
        | false => exact List.nil_sublist _
        | true =>
            obtain ⟨isRow, place⟩ := site isSite
            simp [isRow, place]

end Row

/-- The conversion keeps the order of the rows that loads can be written as. -/
theorem sites_sublist_of_convert {source : Source} {t : Tree} {e : Expr}
    (inOrder : t.RolesInOrder) (made : convert source t = .ok e) :
    e.sites <+ t.sites.map (rowSpan source) := by
  refine sites_sublist_of_row inOrder (fun u isChild e' made' => ?_) made
  have smaller := Tree.size_lt_of_mem_children isChild
  exact sites_sublist_of_convert (inOrder.child isChild) made'
termination_by t.size

end Expr

end HiddenLoads
