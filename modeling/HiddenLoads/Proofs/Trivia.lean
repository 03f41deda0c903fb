/-
# HiddenLoads.Proofs.Trivia -- comments and redundant parentheses are invisible

An edit takes out one comment or puts one pair of parentheses around an expression, anywhere in a
tree (`Tree.Edit`).  Trees that edits lead to, forwards or backwards, are the same code
(`Tree.SameCode`), and a tree without all its comments is one of them
(`Tree.sameCode_withoutComments`).

What a row can see of a child depends on the kind of the row: the expression and the role of the
child always, and sometimes the text of an operator, an empty list of arguments, or the kind of a
substitution, of a sequence or of a part of a pattern.  `Expr.Alike` collects all of it, so that rows
above alike children have the same expression (`Expr.AlikeAll.convert`).  An edit leaves alike
children behind (`Expr.sameOutside_of_edit`), and so does a run of them
(`Expr.convert_eq_of_sameCode`).

A sequence keeps its parentheses: they are the only row that asks what stands inside it.
-/
import HiddenLoads.Proofs.CallSites
import Mathlib.Logic.Relation

namespace HiddenLoads

set_option autoImplicit false

namespace Tree

def isBareComment (t : Tree) : Bool := t.kind.isComment && t.row.field = .other []

def inField (t : Tree) (field : Field) : Tree := .node { t.row with field } t.children

/-- `p` is a pair of parentheses that stands in the place of `u` with nothing but `u` inside. -/
structure Encloses (p u : Tree) : Prop where
  kind : p.kind = .parenthesized
  named : p.row.named = true
  role : p.row.field = u.row.field
  inside : ∃ field, p.visible = [u.inField field]
  visible : u.isVisible = true
  single : u.kind ≠ .sequence

/-- Under a row of this kind, the tree is an expression of its own: an operand, a callee, an
argument, an element, the object or the index of a member access, or a value that is assigned. -/
def isOperandOf (u : Tree) : Kind → Bool
  | .binary => u.row.field = .left || u.row.field = .right
  | .call => u.row.field = .function || u.row.field = .arguments && u.kind ≠ .arguments
  | .member => u.row.field = .object
  | .subscript => u.row.field = .object || u.row.field = .index
  | .declarator => u.row.field = .value
  | .assignment | .augmentedAssignment | .defaultPattern => u.row.field = .right
  | .array | .arguments | .sequence | .substitution | .other _ => true
  | _ => false

/-- A tree, and the same tree with one comment less or one pair of parentheses more. -/
inductive Edit : Tree → Tree → Prop
  | uncomment {comment : Tree} (row : Row) (before after : List Tree)
      (bare : comment.isBareComment = true) :
      Edit (.node row (before ++ comment :: after)) (.node row (before ++ after))
  | enclose {u p : Tree} (row : Row) (before after : List Tree)
      (operand : u.isOperandOf row.kind = true) (encloses : p.Encloses u) :
      Edit (.node row (before ++ u :: after)) (.node row (before ++ p :: after))
  | inside {u u' : Tree} (row : Row) (before after : List Tree) (edit : Edit u u') :
      Edit (.node row (before ++ u :: after)) (.node row (before ++ u' :: after))

end Tree

namespace Expr

/-! ## What a row sees of its children -/

/-- A row of the kind `parent` cannot tell the two trees apart below it. -/
structure Alike (source : Source) (parent : Kind) (u u' : Tree) : Prop where
  visible : u.isVisible = u'.isVisible
  role : u.row.field = u'.row.field
  converted : convert source u = convert source u'
  operator : parent = .binary ∨ parent = .assignment ∨ parent = .augmentedAssignment →
    u.row.field = .operator → rowText source u = rowText source u'
  arguments : parent = .call → u.row.field = .arguments →
    (u.kind = .arguments ∧ u.visible = [] ↔ u'.kind = .arguments ∧ u'.visible = []) ∧
    (u.kind = .arguments ↔ u'.kind = .arguments)
  hole : parent = .template → (u.kind = .substitution ↔ u'.kind = .substitution)
  sequence : parent = .parenthesized → (u.kind = .sequence ↔ u'.kind = .sequence)
  entry : parent = .objectPattern → entryOf source u = entryOf source u'
  target : parent = .pairPattern ∨ parent = .defaultPattern →
    u.row.field ∈ [Field.key, .value, .left] → u.row = u'.row

inductive AlikeAll (source : Source) (parent : Kind) : List Tree → List Tree → Prop
  | nil : AlikeAll source parent [] []
  | cons {u u' : Tree} {ts ts' : List Tree} (first : Alike source parent u u')
      (rest : AlikeAll source parent ts ts') : AlikeAll source parent (u :: ts) (u' :: ts')
  | comment {c : Tree} {ts ts' : List Tree} (bare : c.isBareComment = true)
      (rest : AlikeAll source parent ts ts') : AlikeAll source parent (c :: ts) ts'

variable {source : Source} {parent : Kind}

theorem Alike.refl (u : Tree) : Alike source parent u u where
  visible := rfl
  role := rfl
  converted := rfl
  operator _ _ := rfl
  arguments _ _ := ⟨.rfl, .rfl⟩
  hole _ := .rfl
  sequence _ := .rfl
  entry _ := rfl
  target _ _ := rfl

theorem AlikeAll.refl (ts : List Tree) : AlikeAll source parent ts ts := by
  induction ts with
  | nil => exact .nil
  | cons u ts ih => exact .cons (.refl u) ih

theorem AlikeAll.append {ts ts' : List Tree} (before : List Tree)
    (alike : AlikeAll source parent ts ts') :
    AlikeAll source parent (before ++ ts) (before ++ ts') := by
  induction before with
  | nil => exact alike
  | cons u before ih => exact .cons (.refl u) ih

theorem Alike.part {u u' : Tree} (alike : Alike source parent u u') :
    part source u = part source u' := by
  rw [Expr.part, Expr.part, alike.visible, alike.converted]

theorem not_isVisible_of_isBareComment {c : Tree} (bare : c.isBareComment = true) :
    c.isVisible = false := by
  simp only [Tree.isBareComment, Bool.and_eq_true] at bare
  simp [Tree.isVisible, bare.1]

/-- The first child in a role is the same, as far as the row can tell. -/
theorem AlikeAll.find? {ts ts' : List Tree} (alike : AlikeAll source parent ts ts') {field : Field}
    (role : field ≠ .other []) :
    (ts.find? (fun u => u.row.field = field) = none ∧
      ts'.find? (fun u => u.row.field = field) = none) ∨
    ∃ u u', ts.find? (fun u => u.row.field = field) = some u ∧
      ts'.find? (fun u => u.row.field = field) = some u' ∧ Alike source parent u u' := by
  induction alike with
  | nil => exact .inl ⟨rfl, rfl⟩
  | @cons u u' ts ts' first rest ih =>
      by_cases here : u.row.field = field
      · have there : u'.row.field = field := first.role ▸ here
        rw [List.find?_cons_of_pos (by simpa using here), List.find?_cons_of_pos (by simpa using there)]
        exact .inr ⟨u, u', rfl, rfl, first⟩
      · have there : u'.row.field ≠ field := first.role ▸ here
        rw [List.find?_cons_of_neg (by simpa using here), List.find?_cons_of_neg (by simpa using there)]
        exact ih
  | @comment c ts ts' bare rest ih =>
      have apart : c.row.field ≠ field := by
        simp only [Tree.isBareComment, Bool.and_eq_true, decide_eq_true_eq] at bare
        rw [bare.2]
        exact role.symm
      rw [List.find?_cons_of_neg (by simpa using apart)]
      exact ih

/-- What the row collects of its visible children is the same. -/
theorem AlikeAll.filterMap {α : Type} {ts ts' : List Tree} (alike : AlikeAll source parent ts ts')
    {f : Tree → Option α} (same : ∀ u u', Alike source parent u u' → f u = f u')
    (nothing : ∀ c, c.isVisible = false → f c = none) :
    ts.filterMap f = ts'.filterMap f := by
  induction alike with
  | nil => rfl
  | @cons u u' ts ts' first rest ih => rw [List.filterMap_cons, List.filterMap_cons, same u u' first, ih]
  | @comment c ts ts' bare rest ih =>
      rw [List.filterMap_cons, nothing c (not_isVisible_of_isBareComment bare), ih]

/-- What the row reads off its visible children is the same. -/
theorem AlikeAll.map_visible {α : Type} {ts ts' : List Tree}
    (alike : AlikeAll source parent ts ts') {g : Tree → α}
    (same : ∀ u u', Alike source parent u u' → g u = g u') :
    (ts.filter Tree.isVisible).map g = (ts'.filter Tree.isVisible).map g := by
  have gathered : ∀ us : List Tree, (us.filter Tree.isVisible).map g =
      us.filterMap fun u => if u.isVisible then some (g u) else none := by
    intro us
    rw [← List.filterMap_eq_map, List.filterMap_filter]
    rfl
  rw [gathered, gathered]
  apply alike.filterMap
  · intro u u' first
    rw [first.visible, same u u' first]
  · intro c hidden
    rw [hidden, if_neg Bool.false_ne_true]

/-! ## One row -/

section Row

variable {row : Row} {ts ts' : List Tree}

theorem AlikeAll.mapM_pending (alike : AlikeAll source row.kind ts ts') :
    (Tree.node row ts).pending.mapM (convert source) =
      (Tree.node row ts').pending.mapM (convert source) := by
  have gathered : ∀ us : List Tree, us.mapM (convert source) = (us.map (convert source)).mapM id := by
    intro us
    rw [List.mapM_map]
    rfl
  have same := alike.map_visible fun u u' first => first.converted
  have shown : ∀ us : List Tree, (Tree.node row us).pending =
      if row.kind.isLeaf then [] else us.filter Tree.isVisible := fun _ => rfl
  rw [shown, shown]
  by_cases leaf : row.kind.isLeaf = true
  · rw [if_pos leaf, if_pos leaf]
  · rw [if_neg leaf, if_neg leaf, gathered, gathered, same]

/-- The expression in a role is the same. -/
theorem AlikeAll.inRole (alike : AlikeAll source row.kind ts ts') {field : Field}
    (role : field ≠ .other []) :
    inRole (ts.map fun u => (u, part source u)) field =
      inRole (ts'.map fun u => (u, part source u)) field := by
  have read : ∀ us : List Tree, Expr.inRole (us.map fun u => (u, part source u)) field =
      ((us.find? fun u => u.row.field = field).bind (part source)).getD .missing := by
    intro us
    rw [Expr.inRole, List.find?_map, Option.bind_map]
    rfl
  rw [read, read]
  rcases alike.find? role with ⟨none, none'⟩ | ⟨u, u', found, found', first⟩
  · rw [none, none']
  · rw [found, found', Option.bind_some, Option.bind_some, first.part]

/-- The arguments of a call are the same. -/
theorem AlikeAll.callArguments (alike : AlikeAll source .call ts ts') :
    callArguments (ts.map fun u => (u, part source u)) =
      callArguments (ts'.map fun u => (u, part source u)) := by
  have read : ∀ us : List Tree,
      (us.map fun u => (u, part source u)).find? (fun part => part.1.row.field = .arguments) =
        (us.find? fun u => u.row.field = .arguments).map fun u => (u, part source u) := by
    intro us
    rw [List.find?_map]
    rfl
  rw [Expr.callArguments, Expr.callArguments, read, read]
  rcases alike.find? (show Field.arguments ≠ .other [] by decide) with
    ⟨none, none'⟩ | ⟨u, u', found, found', first⟩
  · rw [none, none']
  · have role : u.row.field = .arguments := by simpa using List.find?_some found
    obtain ⟨bare, kind⟩ := first.arguments rfl role
    rw [found, found', Option.map_some, Option.map_some, first.part]
    cases part source u' with
    | none => simp only [bare]
    | some e => simp only [kind]

/-- The substitutions of a template are the same. -/
theorem AlikeAll.holes (alike : AlikeAll source .template ts ts') :
    (ts.map fun u => (u, part source u)).filterMap (fun part =>
        if part.1.kind = .substitution then part.2 else none) =
      (ts'.map fun u => (u, part source u)).filterMap (fun part =>
        if part.1.kind = .substitution then part.2 else none) := by
  rw [List.filterMap_map, List.filterMap_map]
  apply alike.filterMap
  · intro u u' first
    simp only [Function.comp_apply, first.hole rfl, first.part]
  · intro c hidden
    simp [part, hidden]

/-- The operator is the same. -/
theorem AlikeAll.operator (alike : AlikeAll source row.kind ts ts')
    (operation : row.kind = .binary ∨ row.kind = .assignment ∨ row.kind = .augmentedAssignment)
    (fallback : Text) :
    rowOperator source (.node row ts) fallback = rowOperator source (.node row ts') fallback := by
  rw [rowOperator, rowOperator, Tree.child?, Tree.child?]
  rcases alike.find? (show Field.operator ≠ .other [] by decide) with
    ⟨none, none'⟩ | ⟨u, u', found, found', first⟩
  · simp only [Tree.children, none, none']
  · have role : u.row.field = .operator := by simpa using List.find?_some found
    simp only [Tree.children, found, found', first.operator operation role]

/-- A leaf is built without a look at its children. -/
theorem assemble_of_leaf (leaf : row.kind.isLeaf = true) (ts ts' : List Tree) :
    assemble source (.node row ts) [] = assemble source (.node row ts') [] := by
  obtain ⟨kind, field, named, start, stop⟩ := row
  cases kind <;> first | rfl | cases leaf

/-- The first visible child is a sequence or not, and there is one or not. -/
theorem AlikeAll.sequence (alike : AlikeAll source .parenthesized ts ts') :
    (ts.filter Tree.isVisible).map (fun u => decide (u.kind = .sequence)) =
      (ts'.filter Tree.isVisible).map (fun u => decide (u.kind = .sequence)) :=
  alike.map_visible fun u u' first => by simp only [first.sequence rfl]

/-- Parentheses ask their first visible child only whether it is a sequence. -/
theorem assemble_of_parenthesized (isKind : row.kind = .parenthesized) (below : List Expr) :
    assemble source (.node row ts) below =
      match (ts.filter Tree.isVisible).map (fun u => decide (u.kind = .sequence)), below with
      | false :: _, e :: _ => .ok e
      | _, _ => .ok (.other (source.span row.start row.stop) .parenthesized below) := by
  have shown : (Tree.node row ts).visible = ts.filter Tree.isVisible := rfl
  have kind : (Tree.node row ts).kind = .parenthesized := isKind
  simp only [assemble, kind, shown, Kind.isName, Bool.false_eq_true, if_false]
  cases ts.filter Tree.isVisible with
  | nil => rfl
  | cons u us => by_cases sequence : u.kind = .sequence <;> cases below <;> simp [sequence, Tree.row]

/-- The entries of a destructuring pattern are the same. -/
theorem AlikeAll.entries (alike : AlikeAll source .objectPattern ts ts') :
    (ts.filter Tree.isVisible).filterMap (entryOf source) =
      (ts'.filter Tree.isVisible).filterMap (entryOf source) := by
  have gathered : ∀ us : List Tree, us.filterMap (entryOf source) =
      (us.map (entryOf source)).filterMap id := by
    intro us
    rw [List.filterMap_map]
    rfl
  rw [gathered, gathered, alike.map_visible fun u u' first => first.entry rfl]

/-- From the same expressions, rows with children that they cannot tell apart are built alike. -/
theorem AlikeAll.assemble (alike : AlikeAll source row.kind ts ts') {below : List Expr}
    (aligned : align ts below = ts.map fun u => (u, part source u))
    (aligned' : align ts' below = ts'.map fun u => (u, part source u)) :
    Expr.assemble source (.node row ts) below = Expr.assemble source (.node row ts') below := by
  have roles : ∀ field, field ≠ .other [] → Expr.inRole (align ts below) field =
      Expr.inRole (align ts' below) field := by
    intro field role
    rw [aligned, aligned']
    exact alike.inRole role
  have rows : ∀ us : List Tree, (Tree.node row us).kind = row.kind ∧
      (Tree.node row us).row = row ∧ (Tree.node row us).children = us := fun _ => ⟨rfl, rfl, rfl⟩
  have text : rowText source (.node row ts) = rowText source (.node row ts') := rfl
  have string : rowString source (.node row ts) = rowString source (.node row ts') := rfl
  by_cases parenthesized : row.kind = .parenthesized
  · rw [parenthesized] at alike
    rw [assemble_of_parenthesized parenthesized, assemble_of_parenthesized parenthesized, alike.sequence]
  unfold Expr.assemble
  simp only [rows, text, string]
  cases isKind : row.kind with
  | binary =>
      simp only [roles .left (by decide), roles .right (by decide), alike.operator (.inl isKind)]
  | assignment =>
      simp only [roles .left (by decide), roles .right (by decide),
        alike.operator (.inr (.inl isKind))]
  | augmentedAssignment =>
      simp only [roles .left (by decide), roles .right (by decide),
        alike.operator (.inr (.inr isKind))]
  | member => simp only [roles .object (by decide), roles .property (by decide)]
  | subscript => simp only [roles .object (by decide), roles .index (by decide)]
  | declarator => simp only [roles .declared (by decide), roles .value (by decide)]
  | importStatement | exportStatement => simp only [roles .source (by decide)]
  | call =>
      rw [isKind] at alike
      have arguments : Expr.callArguments (align ts below) = Expr.callArguments (align ts' below) := by
        rw [aligned, aligned', alike.callArguments]
      simp only [roles .function (by decide), arguments]
  | template =>
      rw [isKind] at alike
      simp only [aligned, aligned', alike.holes]
  | parenthesized => exact absurd isKind parenthesized
  | objectPattern =>
      rw [isKind] at alike
      have shown : ∀ us : List Tree, (Tree.node row us).visible = us.filter Tree.isVisible :=
        fun _ => rfl
      simp only [shown, alike.entries]
  | _ => rfl

/-- Rows with children that they cannot tell apart have the same expression, or none. -/
theorem AlikeAll.convert (alike : AlikeAll source row.kind ts ts') :
    convert source (.node row ts) = convert source (.node row ts') := by
  rw [convert_eq, convert_eq, alike.mapM_pending]
  cases converted' : (Tree.node row ts').pending.mapM (Expr.convert source) with
  | error f => rfl
  | ok below =>
      have converted := alike.mapM_pending.trans converted'
      rw [Outcome.mapM_eq_ok_iff] at converted converted'
      rw [Outcome.ok_bind, Outcome.ok_bind]
      cases branch : row.kind.isLeaf with
      | true =>
          have none : (Tree.node row ts).pending = [] := if_pos branch
          rw [none, List.forall₂_nil_left_iff] at converted
          rw [converted]
          exact assemble_of_leaf branch ts ts'
      | false =>
          exact alike.assemble (align_of_converted (t := .node row ts) branch converted)
            (align_of_converted (t := .node row ts') branch converted')

end Row

/-! ## One edit -/

/-- From outside, the two trees look the same, and they have the same expression. -/
structure SameOutside (source : Source) (t t' : Tree) : Prop where
  row : t.row = t'.row
  converted : convert source t = convert source t'
  vacant : t.visible = [] ↔ t'.visible = []
  entry : entryOf source t = entryOf source t'

/-- No row can tell apart what looks the same. -/
theorem SameOutside.alike {t t' : Tree} (same : SameOutside source t t') (parent : Kind) :
    Alike source parent t t' where
  visible := by rw [Tree.isVisible, Tree.isVisible, Tree.kind, Tree.kind, same.row]
  role := by rw [same.row]
  converted := same.converted
  operator _ _ := by rw [rowText, rowText, same.row]
  arguments _ _ := by rw [same.vacant, Tree.kind, Tree.kind, same.row]; exact ⟨.rfl, .rfl⟩
  hole _ := by rw [Tree.kind, Tree.kind, same.row]
  sequence _ := by rw [Tree.kind, Tree.kind, same.row]
  entry _ := same.entry
  target _ _ := same.row

/-- What a part of a pattern reads off the row in a role is the same. -/
theorem AlikeAll.target {row : Row} {ts ts' : List Tree} (alike : AlikeAll source row.kind ts ts')
    (isTarget : row.kind = .pairPattern ∨ row.kind = .defaultPattern) {field : Field}
    (isRead : field ∈ [Field.key, .value, .left]) :
    ((Tree.node row ts).child? field = none ∧ (Tree.node row ts').child? field = none) ∨
    ∃ u u', (Tree.node row ts).child? field = some u ∧ (Tree.node row ts').child? field = some u' ∧
      u.kind = u'.kind ∧ rowText source u = rowText source u' ∧
      rowString source u = rowString source u' := by
  have role : field ≠ .other [] := by
    rintro rfl
    simp at isRead
  rcases alike.find? role with absent | ⟨u, u', found, found', first⟩
  · exact .inl absent
  · have here : u.row.field = field := by simpa using List.find?_some found
    have same := first.target isTarget (here ▸ isRead)
    refine .inr ⟨u, u', found, found', ?_⟩
    simp only [Tree.kind, rowText, rowString, same, and_self]

theorem AlikeAll.entryOf {row : Row} {ts ts' : List Tree} (alike : AlikeAll source row.kind ts ts') :
    entryOf source (.node row ts) = entryOf source (.node row ts') := by
  have kind : ∀ us : List Tree, (Tree.node row us).kind = row.kind := fun _ => rfl
  unfold Expr.entryOf
  simp only [kind]
  cases isKind : row.kind with
  | pairPattern =>
      have key := alike.target (.inl isKind) (show Field.key ∈ _ by simp)
      have value := alike.target (.inl isKind) (show Field.value ∈ _ by simp)
      rcases key with ⟨noKey, noKey'⟩ | ⟨k, k', key, key', keyKind, keyText, keyString⟩
      · simp only [noKey, noKey']
      · rcases value with ⟨none, none'⟩ | ⟨v, v', value, value', valueKind, valueText, _⟩
        · simp only [key, key', none, none']
        · simp only [key, key', value, value', keyKind, keyText, keyString, valueKind, valueText]
  | defaultPattern =>
      rcases alike.target (.inr isKind) (show Field.left ∈ _ by simp) with
        ⟨none, none'⟩ | ⟨u, u', left, left', leftKind, leftText, _⟩
      · simp only [none, none']
      · simp only [left, left', leftKind, leftText]
  | _ => rfl

theorem AlikeAll.sameOutside {row : Row} {ts ts' : List Tree}
    (alike : AlikeAll source row.kind ts ts') :
    SameOutside source (.node row ts) (.node row ts') where
  row := rfl
  converted := alike.convert
  vacant := by
    have same := alike.map_visible (g := fun _ => ()) fun _ _ _ => rfl
    have vacant : ∀ us : List Tree, (Tree.node row us).visible = [] ↔
        (us.filter Tree.isVisible).map (fun _ => ()) = [] := by
      intro us
      rw [List.map_eq_nil_iff]
      rfl
    rw [vacant, vacant, same]
  entry := alike.entryOf

/-- The role of a tree does not matter for its expression. -/
theorem convert_inField (u : Tree) (field : Field) :
    Expr.convert source (u.inField field) = Expr.convert source u := by
  obtain ⟨⟨kind, role, named, start, stop⟩, ts⟩ := u
  rw [convert_eq, convert_eq]
  rfl

/-- Parentheses have the expression of what stands in them. -/
theorem convert_of_encloses {p u : Tree} (encloses : p.Encloses u) :
    Expr.convert source p = Expr.convert source u := by
  obtain ⟨row, ts⟩ := p
  obtain ⟨field, inside⟩ := encloses.inside
  have isKind : row.kind = .parenthesized := encloses.kind
  have shown : ts.filter Tree.isVisible = [u.inField field] := inside
  have pending : (Tree.node row ts).pending = [u.inField field] := by
    have branch : (Tree.node row ts).kind.isLeaf = false := by rw [encloses.kind]; rfl
    rw [Tree.pending, branch, if_neg Bool.false_ne_true, inside]
  have single : decide ((u.inField field).kind = .sequence) = false := decide_eq_false encloses.single
  rw [convert_eq, pending, List.mapM_cons, List.mapM_nil, convert_inField]
  cases Expr.convert source u with
  | error f => rfl
  | ok e =>
      show Expr.assemble source (.node row ts) [e] = .ok e
      rw [assemble_of_parenthesized isKind, shown, List.map_cons, single]

theorem alike_of_encloses {p u : Tree} (operand : u.isOperandOf parent = true)
    (encloses : p.Encloses u) : Alike source parent u p where
  visible := by
    rw [encloses.visible, Tree.isVisible, encloses.named, encloses.kind]
    rfl
  role := encloses.role.symm
  converted := (convert_of_encloses encloses).symm
  operator isOperation isOperator := by
    rcases isOperation with rfl | rfl | rfl <;> simp [Tree.isOperandOf, isOperator] at operand
  arguments isCall isArguments := by
    subst isCall
    have apart : u.kind ≠ .arguments := by simpa [Tree.isOperandOf, isArguments] using operand
    simp [apart, encloses.kind]
  hole isTemplate := by
    subst isTemplate
    cases operand
  sequence isParenthesized := by
    subst isParenthesized
    cases operand
  entry isPattern := by
    subst isPattern
    cases operand
  target isTarget isRead := by
    rcases isTarget with rfl | rfl
    · cases operand
    · simp only [Tree.isOperandOf, decide_eq_true_eq] at operand
      rw [operand] at isRead
      simp at isRead

/-- **One step.**  An edit changes nothing that can be seen from outside. -/
theorem sameOutside_of_edit {t t' : Tree} (edit : t.Edit t') : SameOutside source t t' := by
  induction edit with
  | uncomment row before after bare =>
      have rest : AlikeAll source row.kind after after := .refl after
      exact ((AlikeAll.comment bare rest).append before).sameOutside
  | enclose row before after operand encloses =>
      have first : Alike source row.kind _ _ := alike_of_encloses operand encloses
      exact ((AlikeAll.cons first (.refl after)).append before).sameOutside
  | inside row before after _ ih =>
      exact ((AlikeAll.cons (ih.alike row.kind) (.refl after)).append before).sameOutside

end Expr

namespace Tree

/-! ## Any number of edits -/

def SameCode : Tree → Tree → Prop := Relation.EqvGen Edit

mutual

def withoutComments : Tree → Tree
  | .node row children => .node row (withoutCommentsAll children)

def withoutCommentsAll : List Tree → List Tree
  | [] => []
  | t :: ts =>
      if t.kind.isComment then withoutCommentsAll ts else t.withoutComments :: withoutCommentsAll ts

end

mutual

def subtrees : Tree → List Tree
  | .node _ children => subtreesAll children

def subtreesAll : List Tree → List Tree
  | [] => []
  | t :: ts => t :: (t.subtrees ++ subtreesAll ts)

end

def CommentsBare (t : Tree) : Prop :=
  ∀ c ∈ t.subtrees, c.kind.isComment = true → c.row.field = .other []

instance (t : Tree) : Decidable t.CommentsBare :=
  inferInstanceAs (Decidable (∀ c ∈ t.subtrees, c.kind.isComment = true → c.row.field = .other []))

theorem SameCode.inside {u u' : Tree} (same : SameCode u u') (row : Row) (before after : List Tree) :
    SameCode (.node row (before ++ u :: after)) (.node row (before ++ u' :: after)) := by
  induction same with
  | rel u u' edit => exact .rel _ _ (.inside row before after edit)
  | refl u => exact .refl _
  | symm u u' _ ih => exact .symm _ _ ih
  | trans u u' u'' _ _ ih ih' => exact .trans _ _ _ ih ih'

mutual

/-- Deleting all comments is editing. -/
theorem sameCode_withoutComments : (t : Tree) → t.CommentsBare → SameCode t t.withoutComments
  | .node row children, bare => by
      rw [withoutComments]
      exact sameCode_withoutCommentsAll row [] children bare

/-- The children lose their comments one after the other, those in front being done. -/
theorem sameCode_withoutCommentsAll (row : Row) (before : List Tree) : (ts : List Tree) →
    (∀ c ∈ subtreesAll ts, c.kind.isComment = true → c.row.field = .other []) →
    SameCode (.node row (before ++ ts)) (.node row (before ++ withoutCommentsAll ts))
  | [], _ => by
      rw [withoutCommentsAll]
      exact .refl _
  | t :: ts, bare => by
      rw [subtreesAll, List.forall_mem_cons, List.forall_mem_append] at bare
      obtain ⟨bareHere, bareInside, bareLater⟩ := bare
      rw [withoutCommentsAll]
      by_cases isComment : t.kind.isComment = true
      · have comment : t.isBareComment = true := by simp [isBareComment, isComment, bareHere isComment]
        rw [if_pos isComment]
        exact .trans _ _ _ (.rel _ _ (.uncomment row before ts comment))
          (sameCode_withoutCommentsAll row before ts bareLater)
      · have here := (sameCode_withoutComments t bareInside).inside row before ts
        have rest := sameCode_withoutCommentsAll row (before ++ [t.withoutComments]) ts bareLater
        rw [List.append_assoc, List.append_assoc] at rest
        rw [if_neg isComment]
        exact .trans _ _ _ here rest

end

theorem kind_withoutComments (t : Tree) : t.withoutComments.kind = t.kind := by
  obtain ⟨row, children⟩ := t
  rw [withoutComments]
  rfl

mutual

/-- Then no comment is left. -/
theorem not_isComment_of_mem_withoutComments {c : Tree} :
    (t : Tree) → c ∈ t.withoutComments.subtrees → c.kind.isComment = false
  | .node row children, inside => by
      rw [withoutComments, subtrees] at inside
      exact not_isComment_of_mem_withoutCommentsAll children inside

theorem not_isComment_of_mem_withoutCommentsAll {c : Tree} :
    (ts : List Tree) → c ∈ subtreesAll (withoutCommentsAll ts) → c.kind.isComment = false
  | [], inside => by
      rw [withoutCommentsAll, subtreesAll] at inside
      cases inside
  | t :: ts, inside => by
      rw [withoutCommentsAll] at inside
      by_cases isComment : t.kind.isComment = true
      · rw [if_pos isComment] at inside
        exact not_isComment_of_mem_withoutCommentsAll ts inside
      · rw [if_neg isComment, subtreesAll, List.mem_cons, List.mem_append] at inside
        rcases inside with rfl | inside | inside
        · rw [kind_withoutComments, Bool.eq_false_iff]
          exact isComment
        · exact not_isComment_of_mem_withoutComments t inside
        · exact not_isComment_of_mem_withoutCommentsAll ts inside

end

end Tree

namespace Expr

/-- **A whole run.**  Trees that differ in comments and redundant parentheses only have the same
expression. -/
theorem convert_eq_of_sameCode (source : Source) {t u : Tree} (same : t.SameCode u) :
    convert source u = convert source t := by
  induction same with
  | rel t u edit => exact (sameOutside_of_edit edit).converted.symm
  | refl t => rfl
  | symm t u _ ih => exact ih.symm
  | trans t u v _ _ first second => exact second.trans first

/-- **Comments and redundant parentheses are invisible.**  Where no comment plays a role, the tree
without all its comments has the same expression, or fails in the same way, and so has every tree to
which comments and parentheses around single expressions lead, put in and taken out at any place and
in any number. -/
theorem ofTree_eq_of_sameCode (source : Source) {t : Tree} (bare : t.CommentsBare) :
    (∀ c ∈ t.withoutComments.subtrees, c.kind.isComment = false) ∧
    t.SameCode t.withoutComments ∧ ofTree source t.withoutComments = ofTree source t ∧
    ∀ u, t.SameCode u → ofTree source u = ofTree source t := by
  have run : ∀ u, t.SameCode u → ofTree source u = ofTree source t := by
    intro u same
    rw [ofTree_eq_convert, ofTree_eq_convert, convert_eq_of_sameCode source same]
  have deleted := t.sameCode_withoutComments bare
  exact ⟨fun c => Tree.not_isComment_of_mem_withoutComments t, deleted, run _ deleted, run⟩

def plainArgument : Tree := rowOf .identifier (.other []) 8 9 []

def argumentInParentheses : Tree := rowOf .parenthesized (.other []) 7 10 [plainArgument]

def callWith (arguments : List Tree) : Tree :=
  rowOf .call (.other []) 0 12
    [rowOf .identifier .function 0 1 [], rowOf .arguments .arguments 1 12 arguments]

/-- `f(/**/((x)))`. -/
def callInTrivia : Tree :=
  callWith [rowOf .comment (.other []) 2 6 [],
    rowOf .parenthesized (.other []) 6 11 [argumentInParentheses]]

/-- The comment goes, then one pair of parentheses after the other, and the call stays what it is. -/
theorem callInTrivia_eq_plain :
    callInTrivia.CommentsBare ∧ callInTrivia.SameCode (callWith [plainArgument]) ∧
    ofTree (asciiSource "f(/**/((x)))") (callWith [plainArgument]) =
      ofTree (asciiSource "f(/**/((x)))") callInTrivia := by
  have bare : callInTrivia.CommentsBare := by decide
  have outer : (rowOf .parenthesized (.other []) 6 11 [argumentInParentheses]).Encloses
      argumentInParentheses := ⟨rfl, rfl, rfl, ⟨.other [], rfl⟩, rfl, by decide⟩
  have inner : argumentInParentheses.Encloses plainArgument :=
    ⟨rfl, rfl, rfl, ⟨.other [], rfl⟩, rfl, by decide⟩
  have edits : (rowOf .arguments .arguments 1 12 [rowOf .comment (.other []) 2 6 [],
      rowOf .parenthesized (.other []) 6 11 [argumentInParentheses]]).SameCode
        (rowOf .arguments .arguments 1 12 [plainArgument]) :=
    .trans _ _ _ (.rel _ _ (.uncomment _ [] _ (by decide)))
      (.trans _ _ _ (.symm _ _ (.rel _ _ (.enclose _ [] [] rfl outer)))
        (.symm _ _ (.rel _ _ (.enclose _ [] [] rfl inner))))
  have same : callInTrivia.SameCode (callWith [plainArgument]) :=
    edits.inside _ [rowOf .identifier .function 0 1 []] []
  exact ⟨bare, same, (ofTree_eq_of_sameCode _ bare).2.2.2 _ same⟩

end Expr

end HiddenLoads
