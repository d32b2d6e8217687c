import PageMarkup.Kind
import PageMarkup.Span

/-!
# Trees

A document is a forest: the list of trees under a root that is left implicit. A node carries its
kind, the clusters it was built from, the literal text of a leaf, the element that a later stage
gave it, and the markers of an aggregate.

Functions on trees come in pairs, one for a tree and one for a forest, and recurse on both at once.
-/

namespace PageMarkup

/-- What a node is written as. The content is the literal text of an element without children. -/
structure Element where
  tag : String
  attributes : List (String × String) := []
  content : Option String := none
  deriving DecidableEq, Repr, Inhabited

/-- Value of the first attribute of a name. -/
def Element.attribute? (element : Element) (name : String) : Option String :=
  (element.attributes.find? (·.1 == name)).map (·.2)

/-- What a tree holds at one place, its children aside. -/
structure Node where
  kind : Kind
  /-- The clusters the node was built from; the default span for synthesized nodes. -/
  span : Span := {}
  /-- Literal text of a leaf. -/
  text : String := ""
  element : Option Element := none
  /-- Opening marker of an aggregate. -/
  opener : Option Span := none
  /-- Closing marker of an aggregate. -/
  closer : Option Span := none
  deriving DecidableEq, Repr

namespace Node

/-- The offset that messages about the node point at. -/
def offset (node : Node) : Nat :=
  match node.opener with
  | some opener => opener.start
  | none => node.span.start

/-- The text a leaf stands for: the content of its element, or its own text without one. -/
def literal (node : Node) : String :=
  match node.element with
  | some element => element.content.getD ""
  | none => node.text

end Node

/-- An ordered tree of nodes. -/
inductive Tree where
  | node (data : Node) (children : List Tree)
  deriving Repr

/-- The trees under one node, or under the root of a document. -/
abbrev Forest := List Tree

namespace Tree

/-- What the tree holds at its root. -/
def data : Tree → Node
  | .node data _ => data

/-- The trees under the root of the tree. -/
def children : Tree → Forest
  | .node _ children => children

/-- A tree without children. -/
def leaf (data : Node) : Tree := .node data []

/-- Kind of the root of the tree. -/
def kind (tree : Tree) : Kind := tree.data.kind

/-- Whether the tree has no children. -/
def isLeaf (tree : Tree) : Bool := tree.children.isEmpty

/-- A leaf that holds text ready for output. -/
def textLeaf (text : String) : Tree := leaf { kind := .ready, text }

/-- A leaf that is written as an element. -/
def elementLeaf (element : Element) : Tree := leaf { kind := .ready, element := some element }

/-- An element written around trees. -/
def container (element : Element) (children : Forest) : Tree :=
  .node { kind := .container, element := some element } children

mutual

/-- The nodes of a tree, every node before its children. -/
def preorder : Tree → List Node
  | .node data children => data :: forestPreorder children

/-- The nodes of a forest, every node before its children. -/
def forestPreorder : Forest → List Node
  | [] => []
  | tree :: rest => preorder tree ++ forestPreorder rest

end

mutual

/-- The subtrees of a tree, itself first. -/
def subtrees : Tree → Forest
  | .node data children => .node data children :: forestSubtrees children

/-- The subtrees of the trees of a forest, in preorder. -/
def forestSubtrees : Forest → Forest
  | [] => []
  | tree :: rest => subtrees tree ++ forestSubtrees rest

end

mutual

/-- The texts of the leaves of a tree, in order. -/
def leafTexts : Tree → List String
  | .node data [] => [data.literal]
  | .node _ (child :: rest) => forestLeafTexts (child :: rest)

/-- The texts of the leaves of a forest, in order. -/
def forestLeafTexts : Forest → List String
  | [] => []
  | tree :: rest => leafTexts tree ++ forestLeafTexts rest

end

/-- The text below a node, without any markup. -/
def textContent (tree : Tree) : String := String.join tree.leafTexts

end Tree

namespace Forest

/-- The nodes of a forest, every node before its children. -/
def preorder (forest : Forest) : List Node := Tree.forestPreorder forest

/-- The subtrees of a forest, in preorder. -/
def subtrees (forest : Forest) : Forest := Tree.forestSubtrees forest

/-- Number of nodes. -/
def size (forest : Forest) : Nat := forest.preorder.length

/-- The text of a forest, without any markup. -/
def textContent (forest : Forest) : String := String.join (Tree.forestLeafTexts forest)

end Forest

end PageMarkup
