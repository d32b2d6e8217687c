import PageMarkup.Html

/-! # Reading HTML back

A reader that knows nothing about trees. It takes everything up to the next `<` as
text and everything from there up to the next `>` as a tag, splits a tag into its
name and its attributes in double quotes, and replaces the four entities from left
to right. Whatever it cannot split makes it fail.
-/

namespace PageMarkup

namespace Html

/-- What the reader meets, in order. -/
inductive Event where
  | opening (tag : String) (attributes : List (String × String))
  | closing (tag : String)
  /-- A tag that opens and closes an element without content. -/
  | selfClosing (tag : String) (attributes : List (String × String))
  | text (content : String)
  deriving DecidableEq, Repr

/-- Replaces the entities in one pass. What a replacement leaves is not looked at
again, so `&amp;lt;` stands for `&lt;`. -/
def unescape : List Char → List Char
  | '&' :: 'a' :: 'm' :: 'p' :: ';' :: rest => '&' :: unescape rest
  | '&' :: 'l' :: 't' :: ';' :: rest => '<' :: unescape rest
  | '&' :: 'g' :: 't' :: ';' :: rest => '>' :: unescape rest
  | '&' :: 'q' :: 'u' :: 'o' :: 't' :: ';' :: rest => '"' :: unescape rest
  | c :: rest => c :: unescape rest
  | [] => []

mutual

/-- The attributes of a tag, each a space, a name, an equals sign and a value in
double quotes, and whether a slash follows them. -/
def readAttributes? : List Char → Option (List (String × String) × Bool)
  | [] => some ([], false)
  | c :: rest =>
    if c = ' ' then readName? [] rest
    else if c = '/' ∧ rest = [] then some ([], true)
    else none

/-- The attributes from one on of whose name the beginning has been passed. -/
def readName? (name : List Char) : List Char → Option (List (String × String) × Bool)
  | [] => none
  | c :: rest => if c = '=' then readQuote? name rest else readName? (name ++ [c]) rest

/-- The attributes from one on whose name and equals sign have been passed. -/
def readQuote? (name : List Char) : List Char → Option (List (String × String) × Bool)
  | [] => none
  | c :: rest => if c = '"' then readValue? name [] rest else none

/-- The attributes from one on of whose value the beginning has been passed. -/
def readValue? (name value : List Char) : List Char → Option (List (String × String) × Bool)
  | [] => none
  | c :: rest =>
    if c = '"' then
      (readAttributes? rest).map fun (attributes, closed) =>
        ((String.ofList name, String.ofList (unescape value)) :: attributes, closed)
    else readValue? name (value ++ [c]) rest

end

/-- Whether the character belongs to the name of a tag rather than to what follows it. -/
def isTagChar (c : Char) : Bool := c != ' ' && c != '/'

/-- The event of a tag, given what stands between its brackets. -/
def readTag? : List Char → Option Event
  | '/' :: name => some (.closing (String.ofList name))
  | body =>
    (readAttributes? (body.dropWhile isTagChar)).map fun (attributes, closed) =>
      if closed then .selfClosing (String.ofList (body.takeWhile isTagChar)) attributes
      else .opening (String.ofList (body.takeWhile isTagChar)) attributes

/-- The event of a text as it is written; nothing for an empty text. -/
def readText (written : List Char) : List Event :=
  if written.isEmpty then [] else [.text (String.ofList (unescape written))]

mutual

/-- The events of what is written, after some text that has been passed. -/
def readFrom (text : List Char) : List Char → Option (List Event)
  | [] => some (readText text)
  | c :: rest =>
    if c = '<' then (readInTag [] rest).map (readText text ++ ·)
    else readFrom (text ++ [c]) rest

/-- The events of what is written, after the beginning of a tag that has been passed. A
tag that does not end cannot be read. -/
def readInTag (tag : List Char) : List Char → Option (List Event)
  | [] => none
  | c :: rest =>
    if c = '>' then (readTag? tag).bind fun event => (readFrom [] rest).map (event :: ·)
    else readInTag (tag ++ [c]) rest

end

/-- The events of a page as it is written, unless it cannot be read. -/
def read? (written : String) : Option (List Event) := readFrom [] written.toList

/-- Events with neighbouring texts joined and empty texts left out, as a reader meets them. -/
def joinTexts : List Event → List Event
  | [] => []
  | .text content :: rest =>
    match joinTexts rest with
    | .text more :: others => .text (content ++ more) :: others
    | others => if content.isEmpty then others else .text content :: others
  | event :: rest => event :: joinTexts rest

end Html

open Html

namespace Tree

mutual

/-- The events of a finished tree, depth first. A container opens, holds what is below
it and closes. Any other node is a leaf: an element that never has content closes itself,
an element opens, holds its literal content and closes, and a leaf without an element is
its text. -/
def events : Tree → List Event
  | .node data children =>
    match data.kind, data.element with
    | .container, some element =>
      .opening element.tag element.attributes
        :: (forestEvents children ++ [.closing element.tag])
    | _, some element =>
      if voidTags.contains element.tag then [.selfClosing element.tag element.attributes]
      else
        [.opening element.tag element.attributes, .text (element.content.getD ""),
          .closing element.tag]
    | _, none => [.text data.text]

/-- The events of a forest, depth first. -/
def forestEvents : Forest → List Event
  | [] => []
  | tree :: rest => events tree ++ forestEvents rest

end

end Tree

/-- The events of a forest, depth first. -/
def Forest.events (forest : Forest) : List Event := Tree.forestEvents forest

end PageMarkup
