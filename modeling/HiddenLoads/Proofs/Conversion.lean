/-
# HiddenLoads.Proofs.Conversion -- the conversion as a recursion

The conversion of a syntax tree works off a list of rows and keeps a table of expressions.  Behind
it stands a recursion: `Expr.assemble` makes the expression of a row from the expressions of the rows
below it, and `Expr.convert` does so from the bottom up.  `Expr.align_eq` says what each child of a row
contributes to the expression of the row.  `Tree.order` is the list of rows without a look at their
numbers, and as a recursion it is `Tree.order_eq`.
-/
import HiddenLoads.Expr.OfTree
import HiddenLoads.Proofs.Outcome

namespace HiddenLoads

set_option autoImplicit false

namespace Tree

theorem size_eq (t : Tree) : t.size = sizeAll t.children + 1 := by
  obtain ⟨row, below⟩ := t
  rw [size]
  rfl

theorem sizeAll_append (ts us : List Tree) : sizeAll (ts ++ us) = sizeAll ts + sizeAll us := by
  induction ts with
  | nil => simp [sizeAll]
  | cons t ts ih => simp only [List.cons_append, sizeAll, ih, Nat.add_assoc]

theorem sizeAll_reverse (ts : List Tree) : sizeAll ts.reverse = sizeAll ts := by
  induction ts with
  | nil => rfl
  | cons t ts ih =>
      simp only [List.reverse_cons, sizeAll_append, sizeAll, ih]
      omega

theorem sizeAll_filter_le (p : Tree → Bool) (ts : List Tree) :
    sizeAll (ts.filter p) ≤ sizeAll ts := by
  induction ts with
  | nil => exact Nat.le_refl _
  | cons t ts ih =>
      rw [List.filter_cons]
      split <;> simp only [sizeAll] <;> omega

theorem sizeAll_pending_lt (t : Tree) : sizeAll t.pending < t.size := by
  rw [size_eq, pending]
  split
  · exact Nat.succ_pos _
  · exact Nat.lt_succ_of_le (sizeAll_filter_le _ _)

theorem size_le_sizeAll {t : Tree} {ts : List Tree} (inside : t ∈ ts) : t.size ≤ sizeAll ts := by
  induction ts with
  | nil => cases inside
  | cons u ts ih =>
      rcases List.mem_cons.1 inside with rfl | inside
      · exact Nat.le_add_right _ _
      · exact Nat.le_trans (ih inside) (Nat.le_add_left _ _)

theorem size_lt_of_mem_pending {t u : Tree} (inside : u ∈ t.pending) : u.size < t.size :=
  Nat.lt_of_le_of_lt (size_le_sizeAll inside) (sizeAll_pending_lt t)

/-- The rows of a tree that are converted, parents first. -/
def order (t : Tree) : List Tree := drain pending t.size [t]

/-- The rows below a stack are the rows of each of its trees. -/
theorem drain_pending {fuel : Nat} {ts : List Tree} (enough : sizeAll ts ≤ fuel) :
    drain pending fuel ts = ts.flatMap order := by
  induction fuel using Nat.strongRecOn generalizing ts with
  | ind fuel ih =>
      cases ts with
      | nil => cases fuel <;> rfl
      | cons t stack =>
          have small := sizeAll_pending_lt t
          simp only [sizeAll] at enough
          obtain ⟨fuel, rfl⟩ : ∃ n, fuel = n + 1 := ⟨fuel - 1, by omega⟩
          obtain ⟨size, isSize⟩ : ∃ n, t.size = n + 1 := ⟨t.size - 1, by omega⟩
          have first : t.order = t :: t.pending.reverse.flatMap order := by
            rw [order, isSize, drain, List.append_nil,
              ih size (by omega) (by rw [sizeAll_reverse]; omega)]
          rw [drain, ih fuel (Nat.lt_succ_self _)
              (by rw [sizeAll_append, sizeAll_reverse]; omega), List.flatMap_append,
            List.flatMap_cons, first, List.cons_append]

theorem order_eq (t : Tree) : t.order = t :: t.pending.reverse.flatMap order := by
  obtain ⟨size, isSize⟩ : ∃ n, t.size = n + 1 := ⟨_, t.size_eq⟩
  have small := sizeAll_pending_lt t
  rw [order, isSize, drain, List.append_nil, drain_pending (by rw [sizeAll_reverse]; omega)]

end Tree

namespace Expr

/-- The trees below a row, each with its expression if it was converted. -/
def align : List Tree → List Expr → List (Tree × Option Expr)
  | [], _ => []
  | t :: ts, [] => (t, none) :: align ts []
  | t :: ts, e :: es =>
      if t.isVisible then (t, some e) :: align ts es else (t, none) :: align ts (e :: es)

def inRole (parts : List (Tree × Option Expr)) (field : Field) : Expr :=
  ((parts.find? fun part => part.1.row.field = field).bind Prod.snd).getD .missing

def callArguments (parts : List (Tree × Option Expr)) : Except Failure (List Expr) :=
  match parts.find? fun part => part.1.row.field = .arguments with
  | none => .ok []
  | some (t, some e) => .ok (if t.kind = .arguments then e.children else [e])
  | some (t, none) =>
      if t.kind = .arguments ∧ t.visible = [] then .ok [] else .error .unconvertedChild

/-- The expression of a row, given the expressions of the rows below it. -/
def assemble (source : Source) (t : Tree) (below : List Expr) : Except Failure Expr :=
  let span := source.span t.row.start t.row.stop
  let parts := align t.children below
  if t.kind.isName then .ok (.identifier span (rowText source t))
  else match t.kind with
    | .string => .ok (.string span (rowString source t))
    | .template =>
        let holes := parts.filterMap fun part =>
          if part.1.kind = .substitution then part.2 else none
        if holes.isEmpty then .ok (.string span (rowString source t))
        else .ok (.other span t.kind holes)
    | .number =>
        match Number.ofLiteral? (rowText source t) with
        | some n => .ok (.number span n)
        | none => .ok (.other span t.kind [])
    | .array => .ok (.array span below)
    | .binary =>
        .ok (.binary span (rowOperator source t []) (inRole parts .left) (inRole parts .right))
    | .call => do
        let arguments ← callArguments parts
        .ok (.call span (inRole parts .function) arguments)
    | .member => .ok (.member span (inRole parts .object) (inRole parts .property) false)
    | .subscript => .ok (.member span (inRole parts .object) (inRole parts .index) true)
    | .parenthesized =>
        match t.visible, below with
        | inside :: _, e :: _ =>
            if inside.kind = .sequence then .ok (.other span t.kind below) else .ok e
        | _, _ => .ok (.other span t.kind below)
    | .objectPattern => .ok (.pattern span (t.visible.filterMap (entryOf source)))
    | .declarator =>
        match inRole parts .value with
        | .missing => .ok (.declaration span (inRole parts .declared))
        | value => .ok (.definition span (inRole parts .declared) value)
    | .assignment | .augmentedAssignment =>
        .ok (.assignment span (rowOperator source t "=") (inRole parts .left) (inRole parts .right))
    | .importStatement | .exportStatement =>
        match inRole parts .source with
        | .missing => .ok (.other span t.kind below)
        | specifier => .ok (.importFrom span specifier)
    | kind => .ok (.other span kind below)

mutual

/-- The expression of a syntax tree, made from the expressions of the trees below it. -/
def convert (source : Source) : Tree → Except Failure Expr
  | .node row children => do
      let below ← if row.kind.isLeaf then .ok [] else convertAll source children
      assemble source (.node row children) below

def convertAll (source : Source) : List Tree → Except Failure (List Expr)
  | [] => .ok []
  | t :: ts =>
      if t.isVisible then do
        let e ← convert source t
        let es ← convertAll source ts
        .ok (e :: es)
      else convertAll source ts

end

theorem convertAll_eq (source : Source) (ts : List Tree) :
    convertAll source ts = (ts.filter Tree.isVisible).mapM (convert source) := by
  induction ts with
  | nil => rfl
  | cons t ts ih =>
      rw [convertAll, List.filter_cons, ih]
      split
      · rw [List.mapM_cons]
        rfl
      · rfl

theorem convert_eq (source : Source) (t : Tree) :
    convert source t = t.pending.mapM (convert source) >>= assemble source t := by
  obtain ⟨row, children⟩ := t
  rw [convert, Tree.pending, convertAll_eq]
  cases leaf : row.kind.isLeaf <;> simp only [Tree.kind, Tree.row, leaf] <;> rfl

theorem convert_eq_ok_iff (source : Source) (t : Tree) (e : Expr) :
    convert source t = .ok e ↔ ∃ below,
      List.Forall₂ (fun u e => convert source u = .ok e) t.pending below ∧
        assemble source t below = .ok e := by
  rw [convert_eq, Outcome.bind_eq_ok_iff]
  simp only [Outcome.mapM_eq_ok_iff]

theorem exists_convert_of_mem_pending {source : Source} {t u : Tree} {e : Expr}
    (made : convert source t = .ok e) (inside : u ∈ t.pending) : ∃ e', convert source u = .ok e' := by
  obtain ⟨below, converted, _⟩ := (convert_eq_ok_iff source t e).1 made
  exact Outcome.exists_forall₂_iff.1 ⟨below, converted⟩ u inside

/-- There is one way only in which a row can fail. -/
theorem assemble_eq_error {source : Source} {t : Tree} {below : List Expr} {failure : Failure}
    (fails : assemble source t below = .error failure) : failure = .unconvertedChild := by
  unfold assemble at fails
  simp only at fails
  split at fails
  · cases fails
  split at fails
  case h_6 =>
      rcases Outcome.bind_eq_error_iff.1 fails with fails | ⟨_, _, fails⟩
      · unfold callArguments at fails
        split at fails
        case h_3 =>
            split at fails <;> cases fails
            rfl
        all_goals cases fails
      · cases fails
  all_goals
    repeat' split at fails
    all_goals cases fails

theorem convert_eq_error {source : Source} {t : Tree} {failure : Failure}
    (fails : convert source t = .error failure) : failure = .unconvertedChild := by
  rw [convert_eq] at fails
  rcases Outcome.bind_eq_error_iff.1 fails with fails | ⟨below, _, fails⟩
  · obtain ⟨u, inside, fails⟩ := Outcome.exists_of_mapM_eq_error fails
    have smaller := Tree.size_lt_of_mem_pending inside
    exact convert_eq_error fails
  · exact assemble_eq_error fails
termination_by t.size

/-- What a child contributes to the expression of its parent: its own, if it is visible. -/
def part (source : Source) (u : Tree) : Option Expr :=
  if u.isVisible then (convert source u).toOption else none

theorem part_eq_some_iff {source : Source} {u : Tree} {e : Expr} :
    part source u = some e ↔ u.isVisible = true ∧ convert source u = .ok e := by
  rw [part]
  cases visible : u.isVisible <;> cases convert source u <;> simp [Except.toOption]

theorem part_of_hidden {source : Source} {u : Tree} (hidden : u.isVisible = false) :
    part source u = none := by
  rw [part, hidden, if_neg Bool.false_ne_true]

/-- Every child of a row stands beside its own expression. -/
theorem align_eq {source : Source} {ts : List Tree} {es : List Expr}
    (converted : List.Forall₂ (fun u e => convert source u = .ok e) (ts.filter Tree.isVisible) es) :
    align ts es = ts.map fun u => (u, part source u) := by
  induction ts generalizing es with
  | nil => rfl
  | cons t ts ih =>
      rw [List.filter_cons] at converted
      cases visible : t.isVisible with
      | true =>
          rw [visible, if_pos rfl] at converted
          obtain _ | ⟨first, more⟩ := converted
          rw [align, if_pos visible, ih more, List.map_cons, part_eq_some_iff.2 ⟨visible, first⟩]
      | false =>
          rw [visible, if_neg Bool.false_ne_true] at converted
          have none : part source t = none := part_of_hidden visible
          cases es with
          | nil => rw [align, ih converted, List.map_cons, none]
          | cons e es =>
              rw [align, visible, if_neg Bool.false_ne_true, ih converted, List.map_cons, none]

end Expr

end HiddenLoads
