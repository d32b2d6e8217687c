import PageMarkup.Diagnostic.Fault
import PageMarkup.Tree.Basic

/-!
# Structure

Nesting alone allows trees that mean nothing: a directive inside an emphasis, a link inside a link,
a note reference that is no plain name. Every node is checked against the rules of its kind. The
violations are listed in preorder, and at one node in the order arity, place, nesting; the first of
the list is the fault of the page.
-/

namespace PageMarkup

namespace Tree

/-- A child list that is a single text. -/
def isSingleText : Forest → Bool
  | [child] => child.kind == .text
  | _ => false

/-- The fault of a node that must hold a single text and holds something else. -/
def arityFault? (tree : Tree) : Option (Fault Nat) :=
  if tree.kind.singleText ∧ ¬ tree.isLeaf ∧ ¬ isSingleText tree.children then
    some (.invalidChildren tree.kind.name tree.data.offset)
  else none

/-- The fault of a node that must stand at the root and does not. -/
def placeFault? (atRoot : Bool) (tree : Tree) : Option (Fault Nat) :=
  if tree.kind.rootOnly ∧ ¬ atRoot then
    some (.misplacedNode tree.kind.name tree.data.offset)
  else none

/-- The fault of a flat node with a child that could have children, at that child. -/
def nestingFault? (tree : Tree) : Option (Fault Nat) :=
  if tree.kind.flat then
    (tree.children.find? (·.kind.canHaveChildren)).map fun child =>
      .nestedAggregate tree.kind.name child.kind.name child.data.offset
  else none

/-- The faults of the root of a tree. -/
def ownFaults (atRoot : Bool) (tree : Tree) : List (Fault Nat) :=
  tree.arityFault?.toList ++ (tree.placeFault? atRoot).toList ++ tree.nestingFault?.toList

mutual

/-- The faults of a tree in preorder. -/
def faults (atRoot : Bool) : Tree → List (Fault Nat)
  | .node data children => ownFaults atRoot (.node data children) ++ forestFaults false children

/-- The faults of a forest in preorder. -/
def forestFaults (atRoot : Bool) : Forest → List (Fault Nat)
  | [] => []
  | tree :: rest => faults atRoot tree ++ forestFaults atRoot rest

end

end Tree

/-- Accepts the forest of a document, or tells its first fault. -/
def Forest.check (forest : Forest) : Except (Fault Nat) Unit :=
  match Tree.forestFaults true forest with
  | [] => .ok ()
  | fault :: _ => .error fault

end PageMarkup
