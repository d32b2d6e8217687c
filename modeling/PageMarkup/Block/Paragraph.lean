import PageMarkup.Tree.Edges

/-!
# Paragraphs

The trees of a document between two newlines, or between a newline and a block, make one paragraph.
Newlines go, blocks stay as they are, and runs that hold nothing but white space are dropped.
-/

namespace PageMarkup

namespace Forest

/-- Whether the tree is a newline. -/
def isNewline (tree : Tree) : Bool := tree.kind == .newline

/-- A document without newlines at its start and its end. -/
def trimNewlines (forest : Forest) : Forest :=
  Text.dropTailWhile isNewline (forest.dropWhile isNewline)

/-- Smallest span that contains the spans of all the trees. -/
def span : Forest → Span
  | [] => {}
  | tree :: rest => rest.foldl (fun span next => span.cover next.data.span) tree.data.span

/-- Whether the tree is a text of white space. -/
def isBlankText (tree : Tree) : Bool := tree.kind == .text && Text.isBlankText tree.data.text

/-- The paragraph of a run of trees; nothing for a blank run. -/
def paragraphOf (run : Forest) : Forest :=
  if run.all isBlankText then []
  else [.node { kind := .paragraph, span := span run } (trimEdges run)]

/-- Groups the trees after a run that has been passed, latest first. -/
def paragraphsFrom (run : Forest) : Forest → Forest
  | [] => paragraphOf run.reverse
  | tree :: rest =>
    if isNewline tree then paragraphOf run.reverse ++ paragraphsFrom [] rest
    else if tree.kind.isBlock then paragraphOf run.reverse ++ tree :: paragraphsFrom [] rest
    else paragraphsFrom (tree :: run) rest

/-- Groups the trees of a document into paragraphs and blocks. -/
def paragraphs (forest : Forest) : Forest := paragraphsFrom [] forest

end Forest

end PageMarkup
