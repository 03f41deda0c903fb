/-
# HiddenLoads.Proofs.Rows -- what the conversion of a row keeps of the rows below it

The conversion of a row reads some of the rows below it and drops the others; `Tree.reads` says
which.  `Expr.mem_within_convert_step` is the step from a row to the rows below: the calls in the
expression of a row are the row itself, if it is a call, and the calls in the expressions of the
children that it reads.  Every kind of row has its own lemma, or shares one with the kinds that
read in the same way.
-/
import HiddenLoads.Proofs.Conversion
import HiddenLoads.Proofs.Places

namespace HiddenLoads

set_option autoImplicit false

namespace Tree

/-- The child with a number, if it is converted along with the row. -/
def step? (t : Tree) (i : Nat) : Option Tree :=
  if t.kind.isLeaf then none else t.children[i]?.filter isVisible

/-- The tree at a place, which is given by the way to it through rows that are converted. -/
def at? : Tree → List Nat → Option Tree
  | t, [] => some t
  | t, i :: path => (t.step? i).bind fun u => u.at? path

def isInRole (t : Tree) (field : Field) (i : Nat) : Bool :=
  t.children.findIdx? (fun u => u.row.field = field) = some i

/-- The roles that the conversion of a row looks at; nothing if it looks at other things. -/
def roles? (t : Tree) : Option (List Field) :=
  match t.kind with
  | .binary | .assignment | .augmentedAssignment => some [.left, .right]
  | .call => some [.function, .arguments]
  | .member => some [.object, .property]
  | .subscript => some [.object, .index]
  | .declarator => some [.declared, .value]
  | .importStatement | .exportStatement =>
      if (t.child? .source).any isVisible then some [.source] else none
  | _ => none

def reads (t : Tree) (i : Nat) : Bool :=
  match t.roles? with
  | some fields => fields.any fun field => t.isInRole field i
  | none =>
      match t.kind with
      | .objectPattern => false
      | .template => (t.children[i]?).any fun u => u.kind = .substitution
      | .parenthesized =>
          -- Of what stands in parentheses only the first row counts, unless that is a sequence.
          t.visible.head?.all (fun u => u.kind = .sequence) ||
            t.children.findIdx? isVisible = some i
      | _ => true

theorem step?_eq_some_iff {t u : Tree} {i : Nat} :
    t.step? i = some u ↔
      t.kind.isLeaf = false ∧ t.children[i]? = some u ∧ u.isVisible = true := by
  rw [step?]
  cases t.kind.isLeaf <;> simp [Option.filter_eq_some_iff]

theorem mem_pending_iff {t u : Tree} : u ∈ t.pending ↔ ∃ i, t.step? i = some u := by
  simp only [step?_eq_some_iff, pending]
  cases t.kind.isLeaf with
  | true => simp
  | false =>
      rw [if_neg Bool.false_ne_true, visible, List.mem_filter, List.mem_iff_getElem?]
      simp

theorem at?_cons (t : Tree) (i : Nat) (path : List Nat) :
    t.at? (i :: path) = (t.step? i).bind fun u => u.at? path := rfl

theorem at?_append (t : Tree) (path path' : List Nat) :
    t.at? (path ++ path') = (t.at? path).bind fun u => u.at? path' := by
  induction path generalizing t with
  | nil => rfl
  | cons i path ih =>
      rw [List.cons_append, at?_cons, at?_cons]
      cases t.step? i with
      | none => rfl
      | some u => exact ih u

/-- The rows that are converted are those at the places. -/
theorem mem_order_iff {t u : Tree} : u ∈ t.order ↔ ∃ path, t.at? path = some u := by
  rw [order_eq, List.mem_cons, List.mem_flatMap]
  simp only [List.mem_reverse, mem_pending_iff]
  constructor
  · rintro (rfl | ⟨child, ⟨i, step⟩, inside⟩)
    · exact ⟨[], rfl⟩
    · have smaller := size_lt_of_mem_pending (mem_pending_iff.2 ⟨i, step⟩)
      obtain ⟨path, place⟩ := mem_order_iff.1 inside
      exact ⟨i :: path, by rw [at?_cons, step, Option.bind_some, place]⟩
  · rintro ⟨path, place⟩
    cases path with
    | nil => exact .inl (Option.some.inj place).symm
    | cons i path =>
        rw [at?_cons] at place
        obtain ⟨child, step, place⟩ := Option.bind_eq_some_iff.1 place
        have smaller := size_lt_of_mem_pending (mem_pending_iff.2 ⟨i, step⟩)
        exact .inr ⟨child, ⟨i, step⟩, mem_order_iff.2 ⟨path, place⟩⟩
termination_by t.size

end Tree

/-! ## One row -/

namespace Expr

def isCall : Expr → Bool
  | .call .. => true
  | _ => false

theorem mem_within_of_not_call {e inner : Expr} (call : inner.isCall = true)
    (other : e.isCall = false) : inner ∈ e.within ↔ inner ∈ withinAll e.children := by
  rw [within_eq, List.mem_cons]
  refine or_iff_right ?_
  rintro rfl
  rw [call] at other
  cases other

/-- Some child with a property is converted into an expression with `inner` inside. -/
def Inherits (source : Source) (t : Tree) (which : Nat → Prop) (inner : Expr) : Prop :=
  ∃ i u e, which i ∧ t.step? i = some u ∧ convert source u = .ok e ∧ inner ∈ e.within

section Row

variable {source : Source} {t : Tree} {below : List Expr} {inner : Expr}

theorem inherits_or {p q : Nat → Prop} :
    Inherits source t (fun i => p i ∨ q i) inner ↔
      Inherits source t p inner ∨ Inherits source t q inner := by
  constructor
  · rintro ⟨i, u, e, first | second, rest⟩
    · exact .inl ⟨i, u, e, first, rest⟩
    · exact .inr ⟨i, u, e, second, rest⟩
  · rintro (⟨i, u, e, first, rest⟩ | ⟨i, u, e, second, rest⟩)
    · exact ⟨i, u, e, .inl first, rest⟩
    · exact ⟨i, u, e, .inr second, rest⟩

theorem not_inherits_of_leaf {which : Nat → Prop} (leaf : t.kind.isLeaf = true) :
    ¬ Inherits source t which inner := by
  rintro ⟨i, u, e, _, step, _⟩
  rw [Tree.step?_eq_some_iff, leaf] at step
  cases step.1

/-- The expressions of the rows below are those of the children. -/
theorem mem_withinAll_below
    (converted : List.Forall₂ (fun u e => convert source u = .ok e) t.pending below) :
    inner ∈ withinAll below ↔ Inherits source t (fun _ => True) inner := by
  rw [mem_withinAll]
  simp only [Outcome.mem_iff_of_forall₂ converted, Tree.mem_pending_iff]
  constructor
  · rintro ⟨e, ⟨u, ⟨i, step⟩, made⟩, inside⟩
    exact ⟨i, u, e, trivial, step, made, inside⟩
  · rintro ⟨i, u, e, _, step, made, inside⟩
    exact ⟨e, ⟨u, ⟨i, step⟩, made⟩, inside⟩

theorem align_of_converted (inner : t.kind.isLeaf = false)
    (converted : List.Forall₂ (fun u e => convert source u = .ok e) t.pending below) :
    align t.children below = t.children.map fun u => (u, part source u) := by
  refine align_eq ?_
  rw [Tree.pending, inner, if_neg Bool.false_ne_true] at converted
  exact converted

/-- The first child in a role, with what it contributes. -/
theorem find?_role (field : Field) :
    (t.children.map fun u => (u, part source u)).find? (fun part => part.1.row.field = field) =
      (t.child? field).map fun u => (u, part source u) := by
  rw [List.find?_map, Tree.child?]
  rfl

theorem inherits_role_iff (branch : t.kind.isLeaf = false) (field : Field) :
    Inherits source t (fun i => t.isInRole field i = true) inner ↔
      ∃ u e, t.child? field = some u ∧ part source u = some e ∧ inner ∈ e.within := by
  simp only [Inherits, Tree.isInRole, decide_eq_true_eq, Tree.step?_eq_some_iff, branch, true_and,
    Tree.child?, List.find?_eq_bind_findIdx?_getElem?, Option.bind_eq_some_iff, part_eq_some_iff]
  constructor
  · rintro ⟨i, u, e, first, ⟨child, visible⟩, made, inside⟩
    exact ⟨u, e, ⟨i, first, child⟩, ⟨visible, made⟩, inside⟩
  · rintro ⟨u, e, ⟨i, first, child⟩, ⟨visible, made⟩, inside⟩
    exact ⟨i, u, e, first, ⟨child, visible⟩, made, inside⟩

theorem not_mem_within_missing (call : inner.isCall = true) : inner ∉ within .missing := by
  intro inside
  rw [List.mem_singleton.1 inside] at call
  cases call

/-- A call inside the expression in a role is inside the expression of the first child in that
role. -/
theorem mem_within_inRole (call : inner.isCall = true) (branch : t.kind.isLeaf = false)
    (field : Field) :
    inner ∈ (inRole (t.children.map fun u => (u, part source u)) field).within ↔
      Inherits source t (fun i => t.isInRole field i = true) inner := by
  rw [inRole, find?_role, inherits_role_iff branch]
  cases child : t.child? field with
  | none => simp [not_mem_within_missing call]
  | some u =>
      cases made : part source u with
      | none => simp [made, not_mem_within_missing call]
      | some e => simp [made]

/-- A row of arguments is not a call. -/
theorem not_isCall_of_arguments {u : Tree} {e : Expr} (isArguments : u.kind = .arguments)
    (made : convert source u = .ok e) : e.isCall = false := by
  obtain ⟨below, _, built⟩ := (convert_eq_ok_iff source u e).1 made
  simp only [assemble, isArguments, Kind.isName, Bool.false_eq_true, if_false] at built
  cases built
  rfl

/-- A call inside the arguments of a call is inside the expression of the row in that role. -/
theorem mem_withinAll_arguments (call : inner.isCall = true) (branch : t.kind.isLeaf = false)
    {arguments : List Expr}
    (found : callArguments (t.children.map fun u => (u, part source u)) = .ok arguments) :
    inner ∈ withinAll arguments ↔
      Inherits source t (fun i => t.isInRole .arguments i = true) inner := by
  rw [callArguments, find?_role] at found
  rw [inherits_role_iff branch]
  cases child : t.child? .arguments with
  | none =>
      rw [child] at found
      cases found
      simp [withinAll]
  | some u =>
      rw [child, Option.map_some] at found
      cases made : part source u with
      | none =>
          rw [made] at found
          simp only at found
          split at found <;> cases found
          simp [withinAll, made]
      | some e =>
          rw [made] at found
          cases found
          split
          case isTrue isArguments =>
              have other := not_isCall_of_arguments isArguments (part_eq_some_iff.1 made).2
              simp [made, mem_within_of_not_call call other]
          case isFalse => simp [made, withinAll]

/-- A row that looks at two roles. -/
theorem mem_within_of_roles (call : inner.isCall = true) (branch : t.kind.isLeaf = false)
    {field field' : Field} {e : Expr} (roles : t.roles? = some [field, field'])
    (other : e.isCall = false)
    (kids : inner ∈ withinAll e.children ↔
      inner ∈ (inRole (t.children.map fun u => (u, part source u)) field).within ∨
        inner ∈ (inRole (t.children.map fun u => (u, part source u)) field').within) :
    inner ∈ e.within ↔ Inherits source t (fun i => t.reads i = true) inner := by
  have both : (fun i => t.reads i = true) =
      fun i => t.isInRole field i = true ∨ t.isInRole field' i = true := by
    funext i
    simp [Tree.reads, roles]
  rw [mem_within_of_not_call call other, kids, mem_within_inRole call branch,
    mem_within_inRole call branch, both, inherits_or]

/-- A row all of whose children are kept. -/
theorem mem_within_of_all (call : inner.isCall = true)
    (converted : List.Forall₂ (fun u e => convert source u = .ok e) t.pending below)
    {e : Expr} (other : e.isCall = false) (kids : e.children = below)
    (every : ∀ i, t.reads i = true) :
    inner ∈ e.within ↔ Inherits source t (fun i => t.reads i = true) inner := by
  have all : (fun i => t.reads i = true) = fun _ => True := by
    funext i
    exact eq_true (every i)
  rw [mem_within_of_not_call call other, kids, mem_withinAll_below converted, all]

/-- No expression is missing where a row stands. -/
theorem not_missing_of_convert {source : Source} {t : Tree} {e : Expr}
    (made : convert source t = .ok e) : e.isMissing = false := by
  obtain ⟨below, converted, built⟩ := (convert_eq_ok_iff source t e).1 made
  unfold assemble at built
  simp only at built
  split at built
  · cases built
    rfl
  split at built
  case h_6 =>
      obtain ⟨arguments, _, built⟩ := Outcome.bind_eq_ok_iff.1 built
      cases built
      rfl
  case h_9 =>
      split at built
      · split at built
        · cases built
          rfl
        · -- Parentheses give the expression of what stands in them.
          cases built
          obtain ⟨u, inside, made⟩ :=
            (Outcome.mem_iff_of_forall₂ converted e).1 List.mem_cons_self
          have smaller := Tree.size_lt_of_mem_pending inside
          exact not_missing_of_convert made
      · cases built
        rfl
  all_goals
    repeat' split at built
    all_goals
      cases built
      rfl
termination_by t.size

/-- A visible child in a role has an expression. -/
theorem exists_part_of_visible (branch : t.kind.isLeaf = false)
    (converted : List.Forall₂ (fun u e => convert source u = .ok e) t.pending below)
    {field : Field} {u : Tree} (child : t.child? field = some u) (visible : u.isVisible = true) :
    ∃ e, part source u = some e := by
  obtain ⟨i, place⟩ := List.mem_iff_getElem?.1 (List.mem_of_find?_eq_some child)
  have inside : u ∈ t.pending :=
    Tree.mem_pending_iff.2 ⟨i, Tree.step?_eq_some_iff.2 ⟨branch, place, visible⟩⟩
  obtain ⟨e, made⟩ := Outcome.exists_forall₂_iff.1 ⟨below, converted⟩ u inside
  exact ⟨e, part_eq_some_iff.2 ⟨visible, made⟩⟩

/-- A role is empty exactly if its first child is not visible, or if there is none. -/
theorem isMissing_inRole (branch : t.kind.isLeaf = false)
    (converted : List.Forall₂ (fun u e => convert source u = .ok e) t.pending below)
    (field : Field) :
    (inRole (t.children.map fun u => (u, part source u)) field).isMissing =
      !(t.child? field).any Tree.isVisible := by
  rw [inRole, find?_role]
  cases child : t.child? field with
  | none => rfl
  | some u =>
      cases visible : u.isVisible with
      | false => simp [part, visible, isMissing]
      | true =>
          obtain ⟨e, found⟩ := exists_part_of_visible branch converted child visible
          have present := not_missing_of_convert (part_eq_some_iff.1 found).2
          simp [found, present, visible]

/-- A template keeps what stands in its substitutions. -/
theorem mem_withinAll_holes (isTemplate : t.kind = .template) :
    inner ∈ withinAll ((t.children.map fun u => (u, part source u)).filterMap fun part =>
        if part.1.kind = .substitution then part.2 else none) ↔
      Inherits source t (fun i => t.reads i = true) inner := by
  have holes : ∀ i u, t.children[i]? = some u → (t.reads i = true ↔ u.kind = .substitution) := by
    intro i u place
    simp [Tree.reads, Tree.roles?, isTemplate, place]
  simp only [mem_withinAll, List.filterMap_map, List.mem_filterMap, Function.comp_apply,
    Option.ite_none_right_eq_some, part_eq_some_iff, Inherits, Tree.step?_eq_some_iff]
  constructor
  · rintro ⟨e, ⟨u, child, hole, visible, made⟩, inside⟩
    obtain ⟨i, place⟩ := List.mem_iff_getElem?.1 child
    exact ⟨i, u, e, (holes i u place).2 hole, ⟨by rw [isTemplate]; rfl, place, visible⟩, made,
      inside⟩
  · rintro ⟨i, u, e, reads, ⟨_, place, visible⟩, made, inside⟩
    exact ⟨e, ⟨u, List.mem_of_getElem? place, (holes i u place).1 reads, visible, made⟩, inside⟩

/-- Parentheses around anything but a sequence keep the first row. -/
theorem mem_within_parenthesized (isParenthesized : t.kind = .parenthesized)
    (converted : List.Forall₂ (fun u e => convert source u = .ok e) t.pending below)
    {u : Tree} {us : List Tree} {e : Expr} {es : List Expr} (shown : t.visible = u :: us)
    (first : below = e :: es) (single : u.kind ≠ .sequence) :
    inner ∈ e.within ↔ Inherits source t (fun i => t.reads i = true) inner := by
  have branch : t.kind.isLeaf = false := by rw [isParenthesized]; rfl
  have made : convert source u = .ok e := by
    rw [Tree.pending, branch, if_neg Bool.false_ne_true, shown, first] at converted
    obtain _ | ⟨made, _⟩ := converted
    exact made
  have head : t.children.find? Tree.isVisible = some u := by
    rw [← List.head?_filter]
    exact congrArg List.head? shown
  have alone : ∀ i, t.reads i = true ↔ t.children.findIdx? Tree.isVisible = some i := by
    intro i
    simp [Tree.reads, Tree.roles?, isParenthesized, shown, single]
  simp only [Inherits, alone, Tree.step?_eq_some_iff, branch, true_and]
  rw [List.find?_eq_bind_findIdx?_getElem?] at head
  obtain ⟨i, number, place⟩ := Option.bind_eq_some_iff.1 head
  have visible : u.isVisible = true := List.of_mem_filter (shown ▸ List.mem_cons_self)
  constructor
  · exact fun inside => ⟨i, u, e, number, ⟨place, visible⟩, made, inside⟩
  · rintro ⟨j, v, e', number', ⟨place', _⟩, made', inside⟩
    cases number.symm.trans number'
    cases place.symm.trans place'
    cases made.symm.trans made'
    exact inside

theorem not_inherits_pattern (isPattern : t.kind = .objectPattern) :
    ¬ Inherits source t (fun i => t.reads i = true) inner := by
  rintro ⟨i, u, e, reads, _⟩
  simp [Tree.reads, Tree.roles?, isPattern] at reads

theorem isMissing_iff {e : Expr} : e.isMissing = true ↔ e = .missing := by
  cases e <;> simp [isMissing]

/-- An import or export without a source keeps all. -/
theorem reads_of_vacant (branch : t.kind.isLeaf = false)
    (converted : List.Forall₂ (fun u e => convert source u = .ok e) t.pending below)
    (kinds : t.kind = .importStatement ∨ t.kind = .exportStatement)
    (vacant : inRole (t.children.map fun u => (u, part source u)) .source = .missing) (i : Nat) :
    t.reads i = true := by
  have hidden : (t.child? .source).any Tree.isVisible = false := by
    have empty := isMissing_inRole branch converted .source
    rw [vacant] at empty
    simpa [isMissing] using empty
  rcases kinds with isKind | isKind <;> simp [Tree.reads, Tree.roles?, isKind, hidden]

/-- An import or export with a source keeps that. -/
theorem mem_within_of_source (call : inner.isCall = true) (branch : t.kind.isLeaf = false)
    (converted : List.Forall₂ (fun u e => convert source u = .ok e) t.pending below)
    (kinds : t.kind = .importStatement ∨ t.kind = .exportStatement)
    (full : inRole (t.children.map fun u => (u, part source u)) .source ≠ .missing) (span : Span) :
    inner ∈ (importFrom span
        (inRole (t.children.map fun u => (u, part source u)) .source)).within ↔
      Inherits source t (fun i => t.reads i = true) inner := by
  have shown : (t.child? .source).any Tree.isVisible = true := by
    have occupied := isMissing_inRole branch converted .source
    rw [Bool.eq_false_iff.2 (mt isMissing_iff.1 full)] at occupied
    simpa using occupied
  have alone : (fun i => t.reads i = true) = fun i => t.isInRole .source i = true := by
    funext i
    rcases kinds with isKind | isKind <;> simp [Tree.reads, Tree.roles?, isKind, shown]
  rw [mem_within_of_not_call call rfl, alone, ← mem_within_inRole call branch]
  simp [children, withinAll]

theorem isLeaf_of_isName {kind : Kind} (isName : kind.isName = true) : kind.isLeaf = true := by
  cases kind <;> first | rfl | cases isName

/-- A leaf becomes an expression without anything inside. -/
theorem eq_nil_of_leaf {e : Expr} (leaf : t.kind.isLeaf = true)
    (made : convert source t = .ok e) : e.isCall = false ∧ e.children = [] := by
  obtain ⟨below, converted, built⟩ := (convert_eq_ok_iff source t e).1 made
  rw [Tree.pending, leaf, if_pos rfl, List.forall₂_nil_left_iff] at converted
  subst converted
  unfold assemble at built
  simp only at built
  split at built
  · cases built
    exact ⟨rfl, rfl⟩
  split at built
  case h_1 | h_3 | h_16 =>
      repeat' split at built
      all_goals
        cases built
        exact ⟨rfl, rfl⟩
  all_goals
    rename_i isKind
    rw [isKind] at leaf
    cases leaf

/-- A call keeps what stands in its callee and in its arguments, and itself. -/
theorem mem_within_of_call (call : inner.isCall = true) (isCall : t.kind = .call) {e : Expr}
    (made : convert source t = .ok e) :
    inner ∈ e.within ↔
      inner = e ∨ Inherits source t (fun i => t.reads i = true) inner := by
  have branch : t.kind.isLeaf = false := by rw [isCall]; rfl
  obtain ⟨below, converted, built⟩ := (convert_eq_ok_iff source t e).1 made
  simp only [assemble, isCall, Kind.isName, Bool.false_eq_true, if_false,
    align_of_converted branch converted] at built
  obtain ⟨arguments, found, built⟩ := Outcome.bind_eq_ok_iff.1 built
  cases built
  have both : (fun i => t.reads i = true) =
      fun i => t.isInRole .function i = true ∨ t.isInRole .arguments i = true := by
    funext i
    simp [Tree.reads, Tree.roles?, isCall]
  rw [both, inherits_or, ← mem_within_inRole call branch, ← mem_withinAll_arguments call branch found]
  simp [within]

/-- A row in parentheses that is not the first of them is dropped, unless that is a sequence. -/
theorem mem_within_of_parenthesized (call : inner.isCall = true)
    (isKind : t.kind = .parenthesized) {e : Expr} (made : convert source t = .ok e) :
    inner ∈ e.within ↔ Inherits source t (fun i => t.reads i = true) inner := by
  have branch : t.kind.isLeaf = false := by rw [isKind]; rfl
  obtain ⟨below, converted, built⟩ := (convert_eq_ok_iff source t e).1 made
  simp only [assemble, isKind, Kind.isName, Bool.false_eq_true, if_false] at built
  split at built
  case h_1 u us e' es shown =>
      split at built
      case isTrue sequence =>
          cases built
          refine mem_within_of_all call converted rfl rfl fun i => ?_
          simp [Tree.reads, Tree.roles?, isKind, shown, sequence]
      case isFalse single =>
          cases built
          exact mem_within_parenthesized isKind converted shown rfl single
  case h_2 bare =>
      cases built
      refine mem_within_of_all call converted rfl rfl fun i => ?_
      have hidden : t.visible = [] := by
        rw [Tree.pending, branch, if_neg Bool.false_ne_true] at converted
        cases shown : t.visible with
        | nil => rfl
        | cons u us =>
            rw [shown] at converted
            obtain _ | ⟨_, _⟩ := converted
            exact (bare _ _ _ _ shown rfl).elim
      simp [Tree.reads, Tree.roles?, isKind, hidden]

/-- A row that is no call keeps what stands in the children that it reads. -/
theorem mem_within_of_ne_call (call : inner.isCall = true) (branch : t.kind.isLeaf = false)
    (notCall : t.kind ≠ .call) {e : Expr} (made : convert source t = .ok e) :
    inner ∈ e.within ↔ Inherits source t (fun i => t.reads i = true) inner := by
  by_cases parenthesized : t.kind = .parenthesized
  · exact mem_within_of_parenthesized call parenthesized made
  obtain ⟨below, converted, built⟩ := (convert_eq_ok_iff source t e).1 made
  unfold assemble at built
  simp only [align_of_converted branch converted] at built
  split at built
  case isTrue isName =>
      rw [isLeaf_of_isName isName] at branch
      cases branch
  split at built
  case h_1 isKind | h_3 isKind =>
      rw [isKind] at branch
      cases branch
  case h_2 isKind =>
      rw [← mem_withinAll_holes isKind]
      split at built
      case isTrue empty =>
          cases built
          rw [mem_within_of_not_call call rfl, List.isEmpty_iff.1 empty]
          rfl
      case isFalse =>
          cases built
          exact mem_within_of_not_call call rfl
  case h_4 isKind =>
      cases built
      exact mem_within_of_all call converted rfl rfl fun i => by
        simp [Tree.reads, Tree.roles?, isKind]
  case h_5 isKind | h_7 isKind | h_8 isKind | h_12 isKind | h_13 isKind =>
      cases built
      refine mem_within_of_roles call branch (by rw [Tree.roles?, isKind]) rfl ?_
      simp [children, withinAll]
  case h_6 isKind => exact absurd isKind notCall
  case h_9 isKind => exact absurd isKind parenthesized
  case h_10 isKind =>
      cases built
      rw [mem_within_of_not_call call rfl]
      exact iff_of_false List.not_mem_nil (not_inherits_pattern isKind)
  case h_11 isKind =>
      split at built
      case h_1 vacant =>
          cases built
          refine mem_within_of_roles call branch (by rw [Tree.roles?, isKind]) rfl ?_
          rw [vacant]
          simp [children, withinAll, not_mem_within_missing call]
      case h_2 =>
          cases built
          refine mem_within_of_roles call branch (by rw [Tree.roles?, isKind]) rfl ?_
          simp [children, withinAll]
  case h_14 isKind | h_15 isKind =>
      have kinds : t.kind = .importStatement ∨ t.kind = .exportStatement := by simp [isKind]
      split at built
      case h_1 vacant =>
          cases built
          exact mem_within_of_all call converted rfl rfl
            (reads_of_vacant branch converted kinds vacant)
      case h_2 full =>
          cases built
          exact mem_within_of_source call branch converted kinds full _
  case h_16 =>
      cases built
      refine mem_within_of_all call converted rfl rfl fun i => ?_
      have plain : t.roles? = none := by
        unfold Tree.roles?
        split <;> first | rfl | contradiction
      unfold Tree.reads
      rw [plain]
      simp only

/-- The calls in the expression of a row: the row itself if it is one, and those in the
expressions of the children that it reads. -/
theorem mem_within_convert_step (call : inner.isCall = true) {e : Expr}
    (made : convert source t = .ok e) :
    inner ∈ e.within ↔
      t.kind = .call ∧ inner = e ∨ Inherits source t (fun i => t.reads i = true) inner := by
  by_cases isCall : t.kind = .call
  · simp only [isCall, true_and]
    exact mem_within_of_call call isCall made
  · rw [or_iff_right fun both => isCall both.1]
    cases branch : t.kind.isLeaf with
    | true =>
        obtain ⟨other, empty⟩ := eq_nil_of_leaf branch made
        rw [mem_within_of_not_call call other, empty]
        exact iff_of_false List.not_mem_nil (not_inherits_of_leaf branch)
    | false => exact mem_within_of_ne_call call branch isCall made

end Row

end Expr

end HiddenLoads
