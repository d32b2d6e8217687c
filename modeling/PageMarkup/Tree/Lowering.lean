import PageMarkup.Tree.Basic

/-!
# Lowering

The last step before output gives every style, quote and paragraph its element and makes all other
leaves plain text. Nodes that are ready or containers already stay as they are, and headings keep
the elements they were given.
-/

namespace PageMarkup

namespace Tree

/-- A node with its children in an element without attributes. -/
def tagged (tag : String) (data : Node) (children : Forest) : Tree :=
  .node { data with kind := .container, element := some { tag } } children

/-- A node that is lowered, given its lowered children. Bold emphasis is an emphasis around a bold
text. -/
def lowerNode (data : Node) (children : Forest) : Tree :=
  match data.kind with
  | .ready | .container => .node data children
  | .aggregate (.style .em) => tagged "i" data children
  | .aggregate (.style .emBold) => tagged "i" data [container { tag := "b" } children]
  | .aggregate (.style .bold) => tagged "b" data children
  | .aggregate (.style .strikethrough) => tagged "s" data children
  | .aggregate (.style (.heading _)) => .node { data with kind := .container } children
  | .aggregate (.line .blockquote) => tagged "blockquote" data children
  | .paragraph => tagged "p" data children
  | _ => .node { data with kind := .ready, element := none } children

mutual

/-- A tree that is ready for output. -/
def lower : Tree → Tree
  | .node data children => lowerNode data (forestLower children)

/-- A forest that is ready for output. -/
def forestLower : Forest → Forest
  | [] => []
  | tree :: rest => lower tree :: forestLower rest

end

end Tree

/-- A forest that is ready for output. -/
def Forest.lower (forest : Forest) : Forest := Tree.forestLower forest

end PageMarkup
