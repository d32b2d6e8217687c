import PageMarkup.Tree.Basic

/-!
# Output as HTML

A forest is written from its pieces: opening and closing tags around the children of a container,
a whole element for a leaf that has one, and escaped text for any other leaf. A node without
element that has children writes nothing of its own.
-/

namespace PageMarkup

namespace Html

/-- A character as it stands in text. -/
def escapeTextChar : Char → List Char
  | '&' => "&amp;".toList
  | '<' => "&lt;".toList
  | '>' => "&gt;".toList
  | c => [c]

/-- A character as it stands in a double-quoted attribute. -/
def escapeAttributeChar : Char → List Char
  | '"' => "&quot;".toList
  | c => escapeTextChar c

/-- A text without anything that could be read as markup. -/
def escapeText (text : String) : String := String.ofList (text.toList.flatMap escapeTextChar)

/-- The value of a double-quoted attribute. -/
def escapeAttribute (text : String) : String :=
  String.ofList (text.toList.flatMap escapeAttributeChar)

/-- Tags of elements that never have content. -/
def voidTags : List String := ["img", "br", "hr"]

/-- A piece of output. -/
inductive Piece where
  | openTag (element : Element)
  | closeTag (tag : String)
  /-- An element without children, its content included. -/
  | whole (element : Element)
  | text (content : String)
  deriving DecidableEq, Repr

/-- The attributes of an element, each after a space. -/
def renderAttributes (attributes : List (String × String)) : String :=
  String.join (attributes.map fun (name, value) =>
    " " ++ name ++ "=\"" ++ escapeAttribute value ++ "\"")

/-- An opening tag. -/
def renderOpen (element : Element) : String :=
  "<" ++ element.tag ++ renderAttributes element.attributes ++ ">"

/-- A closing tag. -/
def renderClose (tag : String) : String := "</" ++ tag ++ ">"

/-- An element without children. Void elements close themselves, whatever their content. -/
def renderWhole (element : Element) : String :=
  if voidTags.contains element.tag then
    "<" ++ element.tag ++ renderAttributes element.attributes ++ "/>"
  else renderOpen element ++ escapeText (element.content.getD "") ++ renderClose element.tag

/-- A piece as it is written. -/
def Piece.render : Piece → String
  | .openTag e => renderOpen e
  | .closeTag tag => renderClose tag
  | .whole e => renderWhole e
  | .text content => escapeText content

/-- How a node is written: pieces before its children, whether its children are written, and pieces
after them. -/
def frame (data : Node) (isLeaf : Bool) : List Piece × Bool × List Piece :=
  match data.element with
  | some element =>
    if data.kind = .container ∨ ¬ isLeaf then ([.openTag element], true, [.closeTag element.tag])
    else ([.whole element], false, [])
  | none => if isLeaf then ([.text data.text], false, []) else ([], true, [])

end Html

open Html

namespace Tree

mutual

/-- The pieces of a tree, in order. -/
def pieces : Tree → List Piece
  | .node data children =>
    let (before, descend, after) := frame data children.isEmpty
    if descend then before ++ forestPieces children ++ after else before

/-- The pieces of a forest, in order. -/
def forestPieces : Forest → List Piece
  | [] => []
  | tree :: rest => pieces tree ++ forestPieces rest

end

/-- The HTML of a tree. -/
def html (tree : Tree) : String := String.join (tree.pieces.map Piece.render)

end Tree

/-- The HTML of a forest. -/
def Forest.html (forest : Forest) : String :=
  String.join ((Tree.forestPieces forest).map Piece.render)

end PageMarkup
