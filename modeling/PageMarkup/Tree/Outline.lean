import PageMarkup.Text.Quoted
import PageMarkup.Tree.Basic

/-!
# Outlines of trees

One line a node, indented by depth: the name of the kind, the span, the tag of the element and the
beginning of the text in quotes.
-/

namespace PageMarkup

namespace Node

/-- Number of characters of a text that an outline shows. -/
def outlineLimit : Nat := 24

/-- The beginning of a text, marked with dots where it goes on. -/
def shorten (text : String) : String :=
  if text.toList.length ≤ outlineLimit then text
  else String.ofList (text.toList.take outlineLimit) ++ "..."

/-- The line of a node in an outline. -/
def outlineLine (depth : Nat) (node : Node) : String :=
  String.ofList (List.replicate (2 * depth) ' ')
    ++ node.kind.name
    ++ " [" ++ toString node.span.start ++ ".." ++ toString node.span.stop ++ "]"
    ++ (match node.element with
      | some element => " <" ++ element.tag ++ ">"
      | none => "")
    ++ (if node.text.isEmpty then "" else " " ++ Text.quote (shorten node.text))
    ++ "\n"

end Node

namespace Tree

mutual

/-- The nodes of a tree in preorder with their depths, its root at the given depth. -/
def depths (depth : Nat) : Tree → List (Nat × Node)
  | .node data children => (depth, data) :: forestDepths (depth + 1) children

/-- The nodes of a forest in preorder with their depths. -/
def forestDepths (depth : Nat) : Forest → List (Nat × Node)
  | [] => []
  | tree :: rest => depths depth tree ++ forestDepths depth rest

end

/-- The outline of a tree. -/
def outline (tree : Tree) : String :=
  String.join ((tree.depths 0).map fun entry => entry.2.outlineLine entry.1)

end Tree

end PageMarkup
