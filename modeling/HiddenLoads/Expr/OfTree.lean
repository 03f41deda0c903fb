/-
# HiddenLoads.Expr.OfTree -- from syntax trees to expressions

The rows of a tree are worked off backwards in the order of `Numbered.order`, so the rows below a
row come before it.  The expression of a row is made from those that are in a table by then
(`Expr.build`) and is put into the table itself (`Expr.store`).

A row in a role may be missing.  Any other row that is read has to be in the table, and the
conversion ends if it is not (`Table.read`).  That happens only to the arguments of a call that the
grammar does not name, so that they are not among the rows to convert.
-/
import HiddenLoads.Expr
import HiddenLoads.Literal.StringBody
import HiddenLoads.Number.Literal
import HiddenLoads.Source
import HiddenLoads.Tree.Numbered
import Std.Data.HashMap

namespace HiddenLoads

set_option autoImplicit false

/-- The expressions of the rows converted so far, by the numbers of the rows. -/
abbrev Table := Std.HashMap Nat Expr

namespace Table

/-- The expression of a row that has to be there. -/
def read (built : Table) (n : Numbered) : Except Failure Expr :=
  match built[n.number]? with
  | some e => .ok e
  | none => .error .unconvertedChild

def readAll (built : Table) (ns : List Numbered) : Except Failure (List Expr) := ns.mapM built.read

/-- The expression of the first row in a role below a row, `missing` if there is none. -/
def inRole (built : Table) (n : Numbered) (field : Field) : Expr :=
  ((n.child? field).bind fun c => built[c.number]?).getD .missing

end Table

namespace Expr

def rowText (source : Source) (t : Tree) : Text := source.text t.row.start t.row.stop

def rowString (source : Source) (t : Tree) : Text := StringBody.decode (rowText source t).inner

def rowOperator (source : Source) (t : Tree) (fallback : Text) : Text :=
  match t.child? .operator with
  | some operator => rowText source operator
  | none => fallback

/-- The entries of a destructuring pattern: plain names, `key: name`, and names with a default. -/
def entryOf (source : Source) (t : Tree) : Option Entry :=
  match t.kind with
  | .shorthandPattern => some ⟨rowText source t, rowText source t⟩
  | .pairPattern =>
      match t.child? .key, t.child? .value with
      | some key, some value =>
          if value.kind = .identifier then
            some ⟨if key.kind = .string then rowString source key else rowText source key,
              rowText source value⟩
          else none
      | _, _ => none
  | .defaultPattern =>
      match t.child? .left with
      | some left =>
          if left.kind = .shorthandPattern then some ⟨rowText source left, rowText source left⟩
          else none
      | none => none
  | _ => none

/-- The arguments of a call: those inside the parentheses, or a template behind a tag. -/
def readArguments (built : Table) (n : Numbered) : Except Failure (List Expr) :=
  match n.child? .arguments with
  | none => .ok []
  | some a => built.readAll (if a.kind = .arguments then a.visible else [a])

/-- The expression of a row, made from what is in the table. -/
def build (source : Source) (built : Table) (n : Numbered) : Except Failure Expr :=
  let t := n.tree
  let span := source.span t.row.start t.row.stop
  -- Most rows only keep what is below them.
  let kept := do .ok (.other span t.kind (← built.readAll n.pending))
  if t.kind.isName then .ok (.identifier span (rowText source t))
  else match t.kind with
    | .string => .ok (.string span (rowString source t))
    | .template =>
        match n.visible.filter fun c => c.kind = .substitution with
        | [] => .ok (.string span (rowString source t))
        | holes => do .ok (.other span t.kind (← built.readAll holes))
    | .number =>
        match Number.ofLiteral? (rowText source t) with
        | some value => .ok (.number span value)
        | none => .ok (.other span t.kind [])
    | .array => do .ok (.array span (← built.readAll n.visible))
    | .binary =>
        .ok (.binary span (rowOperator source t []) (built.inRole n .left) (built.inRole n .right))
    | .call => do
        let arguments ← readArguments built n
        .ok (.call span (built.inRole n .function) arguments)
    | .member => .ok (.member span (built.inRole n .object) (built.inRole n .property) false)
    | .subscript => .ok (.member span (built.inRole n .object) (built.inRole n .index) true)
    | .parenthesized =>
        match n.visible with
        | inside :: _ => if inside.kind = .sequence then kept else built.read inside
        | [] => kept
    | .objectPattern => .ok (.pattern span (t.visible.filterMap (entryOf source)))
    | .declarator =>
        match built.inRole n .value with
        | .missing => .ok (.declaration span (built.inRole n .declared))
        | value => .ok (.definition span (built.inRole n .declared) value)
    | .assignment | .augmentedAssignment =>
        .ok (.assignment span (rowOperator source t "=") (built.inRole n .left)
          (built.inRole n .right))
    | .importStatement | .exportStatement =>
        match built.inRole n .source with
        | .missing => kept
        | specifier => .ok (.importFrom span specifier)
    | _ => kept

def store (source : Source) (built : Table) (n : Numbered) : Except Failure Table := do
  .ok (built.insert n.number (← build source built n))

def ofTree (source : Source) (t : Tree) : Except Failure Expr := do
  let built ← t.numbered.order.reverse.foldlM (store source) ∅
  built.read t.numbered

end Expr

end HiddenLoads
