import PageMarkup.Text.Blank
import PageMarkup.Tree.Basic

/-!
# Trimming the edges of a child list

White space at the ends of a line of text carries no meaning. Trimming drops the blank text leaves
at either end of a list of siblings and trims the text leaf that is then outermost, if it is one.
Nothing else is looked at: a space inside an emphasis at the edge stays.
-/

namespace PageMarkup

namespace Tree

/-- Whether the tree is a leaf that holds nothing but text. -/
def isTextLeaf : Tree → Bool
  | .node data [] => data.element.isNone && (data.kind == .text || data.kind == .ready)
  | _ => false

/-- The tree with another text at its root. -/
def withText (text : String) : Tree → Tree
  | .node data children => .node { data with text } children

end Tree

namespace Forest

/-- Drops the blank text leaves at the front and applies `trimText` to a text leaf that is then
first. -/
def trimFront (trimText : String → String) : Forest → Forest
  | [] => []
  | tree :: rest =>
    if tree.isTextLeaf then
      if Text.isBlankText tree.data.text then trimFront trimText rest
      else tree.withText (trimText tree.data.text) :: rest
    else tree :: rest

/-- Trims the front. -/
def trimLeading (forest : Forest) : Forest := trimFront Text.trimStart forest

/-- Trims the back. -/
def trimTrailing (forest : Forest) : Forest := (trimFront Text.trimEnd forest.reverse).reverse

/-- Trims both ends, the front first. -/
def trimEdges (forest : Forest) : Forest := trimTrailing (trimLeading forest)

end Forest

end PageMarkup
