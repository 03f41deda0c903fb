/-
# HiddenLoads.Tree -- syntax trees

A grammar delivers a tree as rows in pre-order, each with the number of its children
(`Tree.ofRows?`).  Named rows that are no comments are the ones that conversion looks at
(`Tree.isVisible`); below a leaf it looks at none (`Tree.pending`).
-/
import HiddenLoads.Tree.Kind

namespace HiddenLoads

set_option autoImplicit false

/-- One row: its kind, its role, whether the grammar names it, and the octets that it covers. -/
structure Row where
  kind : Kind
  field : Field
  named : Bool
  start : Nat
  stop : Nat
deriving DecidableEq, Repr

inductive Tree where
  | node (row : Row) (children : List Tree)
deriving Repr

namespace Tree

def row : Tree → Row
  | .node row _ => row

def children : Tree → List Tree
  | .node _ children => children

def kind (t : Tree) : Kind := t.row.kind

def empty : Tree := .node ⟨.other "program", .other [], true, 0, 0⟩ []

/-- The tree of rows in pre-order, each with the number of its children. -/
def ofRows? (rows : List (Row × Nat)) : Option Tree :=
  (rows.foldr (fun entry done => .node entry.1 (done.take entry.2) :: done.drop entry.2) []).head?

mutual

def size : Tree → Nat
  | .node _ children => sizeAll children + 1

def sizeAll : List Tree → Nat
  | [] => 0
  | t :: ts => size t + sizeAll ts

end

/-- The grammar names the row, and it is no comment. -/
def isVisible (t : Tree) : Bool := t.row.named && !t.kind.isComment

def visible (t : Tree) : List Tree := t.children.filter isVisible

/-- The trees directly below that are converted along with this one. -/
def pending (t : Tree) : List Tree := if t.kind.isLeaf then [] else t.visible

/-- The first tree directly below in a role, whether the grammar names it or not. -/
def child? (t : Tree) (field : Field) : Option Tree :=
  t.children.find? fun c => c.row.field = field

end Tree

end HiddenLoads
