/-
# HiddenLoads.Tree.Numbered -- rows that can be told apart

Two rows of a tree may look alike.  What tells them apart is a number, counted from the top of the
tree in source order (`Tree.numbered`).  `Numbered.order` lists the rows that are converted.  It is
made with a stack (`drain`), since hostile sources nest thousands of levels deep.
-/
import HiddenLoads.Tree

namespace HiddenLoads

set_option autoImplicit false

/-- What comes to the top of a stack, one item after the other, if every item gives way to those
`below` it, the last of them on top; `fuel` bounds their number. -/
def drain {α : Type} (below : α → List α) : (fuel : Nat) → (stack : List α) → List α
  | 0, _ => []
  | _ + 1, [] => []
  | fuel + 1, a :: stack => a :: drain below fuel ((below a).reverse ++ stack)

/-- A tree with a number on every row. -/
inductive Numbered where
  | node (number : Nat) (tree : Tree) (children : List Numbered)

namespace Numbered

def number : Numbered → Nat
  | .node number _ _ => number

def tree : Numbered → Tree
  | .node _ tree _ => tree

def children : Numbered → List Numbered
  | .node _ _ children => children

def kind (n : Numbered) : Kind := n.tree.kind

def isVisible (n : Numbered) : Bool := n.tree.isVisible

def visible (n : Numbered) : List Numbered := n.children.filter isVisible

def pending (n : Numbered) : List Numbered := if n.kind.isLeaf then [] else n.visible

def child? (n : Numbered) (field : Field) : Option Numbered :=
  n.children.find? fun c => c.tree.row.field = field

/-- The rows that are converted, parents first and later siblings before earlier ones. -/
def order (n : Numbered) : List Numbered := drain pending n.tree.size [n]

end Numbered

namespace Tree

mutual

/-- The rows of a tree numbered from `next` on, and the number behind the last of them. -/
def numberFrom (next : Nat) : Tree → Numbered × Nat
  | .node row children =>
      let (below, after) := numberAllFrom (next + 1) children
      (.node next (.node row children) below, after)

def numberAllFrom (next : Nat) : List Tree → List Numbered × Nat
  | [] => ([], next)
  | t :: ts =>
      let (first, after) := numberFrom next t
      let (rest, last) := numberAllFrom after ts
      (first :: rest, last)

end

def numbered (t : Tree) : Numbered := (t.numberFrom 0).1

end Tree

end HiddenLoads
