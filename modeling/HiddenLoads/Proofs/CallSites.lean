/-
# HiddenLoads.Proofs.CallSites -- which calls of a syntax tree the conversion keeps

A call of the tree is kept exactly if every row on the way to it reads the row on the way
(`Expr.mem_within_convert_iff`).  Where the grammar puts calls only under what the conversion
reads, the one kind of row that still drops some is the destructuring pattern: it keeps the names
that it binds, and a call among its default values is lost, as in `defaultOfEntry`.
-/
import HiddenLoads.Proofs.Table

namespace HiddenLoads

set_option autoImplicit false

namespace Tree

/-- Every row on the way to a place reads the row on the way. -/
def Kept (t : Tree) (path : List Nat) : Prop :=
  ∀ above i below r, path = above ++ i :: below → t.at? above = some r → r.reads i = true

theorem kept_nil (t : Tree) : t.Kept [] := by
  intro above i below r split
  simp at split

theorem kept_cons {t u : Tree} {i : Nat} (path : List Nat) (step : t.step? i = some u) :
    t.Kept (i :: path) ↔ t.reads i = true ∧ u.Kept path := by
  constructor
  · intro kept
    refine ⟨kept [] i path t rfl rfl, fun above j below r split place => ?_⟩
    exact kept (i :: above) j below r (by rw [split, List.cons_append])
      (by rw [at?_cons, step, Option.bind_some, place])
  · rintro ⟨first, rest⟩ above j below r split place
    cases above with
    | nil =>
        cases split
        cases place
        exact first
    | cons k above =>
        rw [List.cons_append, List.cons.injEq] at split
        obtain ⟨rfl, split⟩ := split
        rw [at?_cons, step, Option.bind_some] at place
        exact rest above j below r split place

def UnderPattern (t : Tree) (path : List Nat) : Prop :=
  ∃ above i below r, path = above ++ i :: below ∧ t.at? above = some r ∧ r.kind = .objectPattern

def holdsCall (t : Tree) : Bool := t.order.any fun u => u.kind = .call

/-- Apart from destructuring patterns, rows hold calls only under the children that the
conversion reads. -/
def CallsUnderRead (t : Tree) : Prop :=
  ∀ r ∈ t.order, r.kind ≠ .objectPattern → ∀ i < r.children.length, ∀ u ∈ r.step? i,
    u.holdsCall = true → r.reads i = true

instance (t : Tree) : Decidable t.CallsUnderRead :=
  inferInstanceAs (Decidable (∀ r ∈ t.order, r.kind ≠ .objectPattern →
    ∀ i < r.children.length, ∀ u ∈ r.step? i, u.holdsCall = true → r.reads i = true))

/-- Then a call is kept exactly if it is not below a destructuring pattern. -/
theorem kept_iff_not_underPattern {t c : Tree} {path : List Nat} (under : t.CallsUnderRead)
    (place : t.at? path = some c) (isCall : c.kind = .call) :
    t.Kept path ↔ ¬ t.UnderPattern path := by
  constructor
  · rintro kept ⟨above, i, below, r, split, isRow, isPattern⟩
    have reads := kept above i below r split isRow
    simp [Tree.reads, roles?, isPattern] at reads
  · intro clear above i below r split isRow
    rw [split, at?_append, isRow, Option.bind_some, at?_cons] at place
    obtain ⟨u, step, inner⟩ := Option.bind_eq_some_iff.1 place
    have bound : i < r.children.length :=
      (List.getElem?_eq_some_iff.1 (step?_eq_some_iff.1 step).2.1).1
    refine under r (mem_order_iff.2 ⟨above, isRow⟩) (fun isPattern => ?_) i bound u step ?_
    · exact clear ⟨above, i, below, r, split, isRow, isPattern⟩
    · exact List.any_eq_true.2 ⟨c, mem_order_iff.2 ⟨below, inner⟩, decide_eq_true isCall⟩

/-- The arguments of a call can be read: they are visible, or an empty list of them. -/
def argumentsRead (t : Tree) : Bool :=
  (t.child? .arguments).all fun u => u.isVisible || u.kind = .arguments && u.visible.isEmpty

end Tree

namespace Expr

/-- The calls in the expression of a tree are those of its calls that are kept. -/
theorem mem_within_convert_iff {source : Source} {t : Tree} {e inner : Expr}
    (call : inner.isCall = true) (made : convert source t = .ok e) :
    inner ∈ e.within ↔ ∃ path c, t.at? path = some c ∧ t.Kept path ∧ c.kind = .call ∧
      convert source c = .ok inner := by
  rw [mem_within_convert_step call made]
  constructor
  · rintro (⟨isCall, rfl⟩ | ⟨i, u, e', reads, step, made', inside⟩)
    · exact ⟨[], t, rfl, t.kept_nil, isCall, made⟩
    · have smaller := Tree.size_lt_of_mem_pending (Tree.mem_pending_iff.2 ⟨i, step⟩)
      obtain ⟨path, c, place, kept, isCall, madeInner⟩ := (mem_within_convert_iff call made').1 inside
      exact ⟨i :: path, c, by rw [Tree.at?_cons, step, Option.bind_some, place],
        (Tree.kept_cons path step).2 ⟨reads, kept⟩, isCall, madeInner⟩
  · rintro ⟨path, c, place, kept, isCall, madeInner⟩
    cases path with
    | nil =>
        cases place
        cases made.symm.trans madeInner
        exact .inl ⟨isCall, rfl⟩
    | cons i path =>
        rw [Tree.at?_cons] at place
        obtain ⟨u, step, place⟩ := Option.bind_eq_some_iff.1 place
        obtain ⟨reads, kept⟩ := (Tree.kept_cons path step).1 kept
        have inside := Tree.mem_pending_iff.2 ⟨i, step⟩
        have smaller := Tree.size_lt_of_mem_pending inside
        obtain ⟨below, converted, _⟩ := (convert_eq_ok_iff source t e).1 made
        obtain ⟨e', made'⟩ := Outcome.exists_forall₂_iff.1 ⟨below, converted⟩ u inside
        exact .inr ⟨i, u, e', reads, step, made',
          (mem_within_convert_iff call made').2 ⟨path, c, place, kept, isCall, madeInner⟩⟩
termination_by t.size

/-- The arguments of a call are found exactly if they can be read. -/
theorem exists_callArguments_iff {source : Source} {t : Tree} {below : List Expr}
    (branch : t.kind.isLeaf = false)
    (converted : List.Forall₂ (fun u e => convert source u = .ok e) t.pending below) :
    (∃ arguments, callArguments (t.children.map fun u => (u, part source u)) = .ok arguments) ↔
      t.argumentsRead = true := by
  rw [callArguments, find?_role, Tree.argumentsRead]
  cases child : t.child? .arguments with
  | none => exact iff_of_true ⟨_, rfl⟩ rfl
  | some u =>
      cases visible : u.isVisible with
      | false =>
          have hidden : part source u = none := by rw [part, visible, if_neg Bool.false_ne_true]
          by_cases bare : u.kind = .arguments ∧ u.visible = [] <;> simp [hidden, visible, bare]
      | true =>
          obtain ⟨e, found⟩ := exists_part_of_visible branch converted child visible
          simp [found, visible]

/-- Only a call whose arguments cannot be read has no expression. -/
theorem exists_assemble_iff {source : Source} {t : Tree} {below : List Expr}
    (converted : List.Forall₂ (fun u e => convert source u = .ok e) t.pending below) :
    (∃ e, assemble source t below = .ok e) ↔ (t.kind = .call → t.argumentsRead = true) := by
  by_cases isCall : t.kind = .call
  · have branch : t.kind.isLeaf = false := by rw [isCall]; rfl
    rw [← exists_callArguments_iff branch converted]
    simp only [assemble, isCall, Kind.isName, Bool.false_eq_true, if_false, forall_const,
      align_of_converted branch converted]
    cases callArguments (t.children.map fun u => (u, part source u)) <;> simp
  · refine iff_of_true ?_ fun isKind => absurd isKind isCall
    unfold assemble
    simp only
    repeat' split
    all_goals first | exact ⟨_, rfl⟩ | contradiction

/-- The conversion succeeds exactly if the arguments of every call can be read. -/
theorem exists_convert_iff (source : Source) (t : Tree) :
    (∃ e, convert source t = .ok e) ↔
      ∀ c ∈ t.order, c.kind = .call → c.argumentsRead = true := by
  have step : (∃ e, convert source t = .ok e) ↔
      (t.kind = .call → t.argumentsRead = true) ∧ ∀ u ∈ t.pending, ∃ e, convert source u = .ok e := by
    rw [← Outcome.exists_forall₂_iff]
    constructor
    · rintro ⟨e, made⟩
      obtain ⟨below, converted, built⟩ := (convert_eq_ok_iff source t e).1 made
      exact ⟨(exists_assemble_iff converted).1 ⟨e, built⟩, below, converted⟩
    · rintro ⟨reads, below, converted⟩
      obtain ⟨e, built⟩ := (exists_assemble_iff converted).2 reads
      exact ⟨e, (convert_eq_ok_iff source t e).2 ⟨below, converted, built⟩⟩
  rw [step, Tree.order_eq, List.forall_mem_cons]
  refine and_congr_right fun _ => ⟨fun each c inside => ?_, fun rows u isChild => ?_⟩
  · obtain ⟨u, isChild, inside⟩ := List.mem_flatMap.1 inside
    have smaller := Tree.size_lt_of_mem_pending (List.mem_reverse.1 isChild)
    exact (exists_convert_iff source u).1 (each u (List.mem_reverse.1 isChild)) c inside
  · have smaller := Tree.size_lt_of_mem_pending isChild
    exact (exists_convert_iff source u).2 fun c inside =>
      rows c (List.mem_flatMap.2 ⟨u, List.mem_reverse.2 isChild, inside⟩)
termination_by t.size

theorem eq_call_of_convert {source : Source} {c : Tree} {e : Expr} (isCall : c.kind = .call)
    (made : convert source c = .ok e) :
    ∃ callee arguments, e = .call (source.span c.row.start c.row.stop) callee arguments := by
  obtain ⟨below, _, built⟩ := (convert_eq_ok_iff source c e).1 made
  simp only [assemble, isCall, Kind.isName, Bool.false_eq_true, if_false] at built
  obtain ⟨arguments, _, built⟩ := Outcome.bind_eq_ok_iff.1 built
  cases built
  exact ⟨_, arguments, rfl⟩

/-- **Which calls the conversion keeps.**  In a tree that holds calls only under what the
conversion reads, destructuring patterns apart, the conversion succeeds exactly if the arguments
of every call can be read.  Then every call that is not below a pattern stands in the result with
its own expression, and of a call below one nothing is left at its span. -/
theorem call_kept_iff_not_under_pattern (source : Source) {t : Tree} (under : t.CallsUnderRead) :
    ((∃ e, ofTree source t = .ok e) ↔ ∀ c ∈ t.order, c.kind = .call → c.argumentsRead = true) ∧
    ∀ e, ofTree source t = .ok e → ∀ path c, t.at? path = some c → c.kind = .call →
      (¬ t.UnderPattern path → ∃ callee arguments,
        ofTree source c = .ok (.call (source.span c.row.start c.row.stop) callee arguments) ∧
        .call (source.span c.row.start c.row.stop) callee arguments ∈ e.within) ∧
      (t.UnderPattern path →
        (∀ path' c', t.at? path' = some c' → c'.kind = .call →
          source.span c'.row.start c'.row.stop = source.span c.row.start c.row.stop →
          path' = path) →
        ∀ callee arguments,
          .call (source.span c.row.start c.row.stop) callee arguments ∉ e.within) := by
  simp only [ofTree_eq_convert]
  refine ⟨exists_convert_iff source t, fun e made path c place isCall => ⟨fun clear => ?_, ?_⟩⟩
  · -- The call has an expression of its own, since the whole tree has one.
    have rows := (exists_convert_iff source t).1 ⟨e, made⟩
    obtain ⟨inner, madeInner⟩ := (exists_convert_iff source c).2 fun c' inside => by
      obtain ⟨path', place'⟩ := Tree.mem_order_iff.1 inside
      exact rows c' (Tree.mem_order_iff.2 ⟨path ++ path', by
        rw [Tree.at?_append, place, Option.bind_some, place']⟩)
    obtain ⟨callee, arguments, rfl⟩ := eq_call_of_convert isCall madeInner
    have kept := (Tree.kept_iff_not_underPattern under place isCall).2 clear
    exact ⟨callee, arguments, madeInner,
      (mem_within_convert_iff rfl made).2 ⟨path, c, place, kept, isCall, madeInner⟩⟩
  · intro covered alone callee arguments inside
    obtain ⟨path', c', place', kept, isCall', madeInner⟩ := (mem_within_convert_iff rfl made).1 inside
    obtain ⟨callee', arguments', same⟩ := eq_call_of_convert isCall' madeInner
    rw [Expr.call.injEq] at same
    obtain rfl := alone path' c' place' isCall' same.1.symm
    exact (Tree.kept_iff_not_underPattern under place' isCall').1 kept covered

def asciiSource (text : Text) : Source := .ofBytes (text.map fun c => c.val.toUInt8)

def rowOf (kind : Kind) (field : Field) (start stop : Nat) (children : List Tree) : Tree :=
  .node ⟨kind, field, true, start, stop⟩ children

/-- `f()`, with its role and where it begins. -/
def callOf (field : Field) (start : Nat) : Tree :=
  rowOf .call field start (start + 3)
    [rowOf .identifier .function start (start + 1) [],
      rowOf .arguments .arguments (start + 1) (start + 3) []]

/-- `{ a } = f()`. -/
def valueOfPattern : Tree :=
  rowOf .declarator (.other []) 0 11
    [rowOf .objectPattern .declared 0 5 [rowOf .shorthandPattern (.other []) 2 3 []],
      callOf .value 8]

/-- A call beside a pattern is kept. -/
theorem valueOfPattern_kept :
    valueOfPattern.CallsUnderRead ∧
    ∃ e, ofTree (asciiSource "{ a } = f()") valueOfPattern = .ok e ∧
      ∃ callee arguments, .call ⟨1, 8, 1, 11⟩ callee arguments ∈ e.within := by
  have under : valueOfPattern.CallsUnderRead := by decide
  obtain ⟨success, kept⟩ :=
    call_kept_iff_not_under_pattern (asciiSource "{ a } = f()") under
  obtain ⟨e, made⟩ := success.2 (by decide)
  have here : (asciiSource "{ a } = f()").span 8 11 = ⟨1, 8, 1, 11⟩ := by decide
  refine ⟨under, e, made, ?_⟩
  rw [← here]
  obtain ⟨callee, arguments, _, inside⟩ := (kept e made [1] (callOf .value 8) rfl rfl).1 (by
    rintro ⟨above, i, below, r, split, place, isPattern⟩
    cases above with
    | nil =>
        cases place
        cases isPattern
    | cons j above => simp at split)
  exact ⟨callee, arguments, inside⟩

/-- `{ a = f() } = y`. -/
def defaultOfEntry : Tree :=
  rowOf .declarator (.other []) 0 15
    [rowOf .objectPattern .declared 0 11
        [rowOf .defaultPattern (.other []) 2 9
          [rowOf .shorthandPattern .left 2 3 [], callOf .right 6]],
      rowOf .identifier .value 14 15 []]

/-- The call in the default value of an entry is lost. -/
theorem defaultOfEntry_lost :
    defaultOfEntry.CallsUnderRead ∧ defaultOfEntry.at? [0, 0, 1] = some (callOf .right 6) ∧
    ∃ e, ofTree (asciiSource "{ a = f() } = y") defaultOfEntry = .ok e ∧
      ∀ inner ∈ e.within, inner.isCall = false :=
  ⟨by decide, rfl, _, (ofTree_eq_convert _ _).trans rfl, by decide⟩

end Expr

end HiddenLoads
