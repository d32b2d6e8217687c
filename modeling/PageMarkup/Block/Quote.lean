import PageMarkup.Tree.Edges

/-!
# Quotes

Every quoted line is an aggregate of its own. Lines that follow each other make one quote with a
paragraph for each line; blank lines give no paragraph, and a quote of blank lines only is nothing.
-/

namespace PageMarkup

namespace Forest

/-- Whether the tree is a quoted line. -/
def isQuote (tree : Tree) : Bool := tree.kind == .aggregate (.line .blockquote)

/-- The paragraph of a quoted line, if the line is not blank. -/
def quotedParagraph (line : Tree) : Forest :=
  let children := trimEdges line.children
  if children.isEmpty then [] else [.node { kind := .paragraph, span := line.data.span } children]

/-- A quoted line before a forest whose quotes are merged. A quote right after it goes on it. -/
def prependQuote (line : Tree) : Forest → Forest
  | [] => [.node line.data (quotedParagraph line)]
  | next :: rest =>
    if isQuote next then
      .node { line.data with span := line.data.span.cover next.data.span }
        (quotedParagraph line ++ next.children) :: rest
    else .node line.data (quotedParagraph line) :: next :: rest

/-- Merges quoted lines that follow each other, blank quotes included. -/
def joinQuotes : Forest → Forest
  | [] => []
  | tree :: rest =>
    if isQuote tree then prependQuote tree (joinQuotes rest) else tree :: joinQuotes rest

/-- Merges quoted lines and drops the quotes without content. -/
def mergeQuotes (forest : Forest) : Forest :=
  (joinQuotes forest).filter fun tree => !(isQuote tree && tree.isLeaf)

end Forest

end PageMarkup
