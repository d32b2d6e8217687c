/-!
# Kinds

Every token and every node has a kind. Markers are tokens; a marker may open an aggregate, a node
that holds what stands between two markers. Styles are opened and closed by the same marker,
brackets by different ones, and line constructs run to the end of their line. The remaining kinds
are the document, plain leaves, and what later stages make of the tree: paragraphs, containers and
leaves that are ready for output.
-/

namespace PageMarkup

/-- Levels of headings. The first level is left to the title. -/
inductive HeadingLevel where
  | two
  | three
  | four
  | five
  | six
  deriving DecidableEq, Repr

/-- The level as a number. -/
def HeadingLevel.number : HeadingLevel → Nat
  | .two => 2
  | .three => 3
  | .four => 4
  | .five => 5
  | .six => 6

/-- The level with a given number. -/
def HeadingLevel.ofNumber? : Nat → Option HeadingLevel
  | 2 => some .two
  | 3 => some .three
  | 4 => some .four
  | 5 => some .five
  | 6 => some .six
  | _ => none

/-- Constructs opened and closed by the same marker. -/
inductive Style where
  | em
  | bold
  | emBold
  | strikethrough
  | heading (level : HeadingLevel)
  deriving DecidableEq, Repr

/-- Constructs with an opening and a closing marker of their own. -/
inductive Bracket where
  | externalLink
  | embeddedFile
  | noteRef
  deriving DecidableEq, Repr

/-- Constructs that start a line and run to its end. -/
inductive LineConstruct where
  | blockquote
  | directive
  deriving DecidableEq, Repr

/-- Nodes that hold what stands between two markers. -/
inductive Aggregate where
  | style (style : Style)
  | bracket (bracket : Bracket)
  | line (line : LineConstruct)
  deriving DecidableEq, Repr

/-- What a token or a node is. -/
inductive Kind where
  | documentRoot
  | newline
  | text
  /-- A backslash that escapes nothing. -/
  | backslash
  | styleMark (style : Style)
  | bracketStart (bracket : Bracket)
  | bracketEnd (bracket : Bracket)
  | lineMark (line : LineConstruct)
  | aggregate (aggregate : Aggregate)
  | paragraph
  /-- A leaf whose text or element is written as it is. -/
  | ready
  /-- A node whose element is written around its children. -/
  | container
  deriving DecidableEq, Repr

namespace Style

/-- Number of characters of the marker. -/
def markLength : Style → Nat
  | .em => 1
  | .bold => 2
  | .emBold => 3
  | .strikethrough => 2
  | .heading level => level.number

/-- Name of the marker. -/
def name : Style → String
  | .em => "em"
  | .bold => "bold"
  | .emBold => "embold"
  | .strikethrough => "strikethrough"
  | .heading level => "heading" ++ toString level.number

end Style

namespace Bracket

/-- Number of characters of either marker. -/
def markLength : Bracket → Nat
  | .externalLink => 2
  | .embeddedFile => 3
  | .noteRef => 1

/-- Name of the construct. -/
def name : Bracket → String
  | .externalLink => "external_link"
  | .embeddedFile => "embedded_file"
  | .noteRef => "note_ref"

end Bracket

namespace Aggregate

/-- The marker that opens the aggregate. -/
def startedBy : Aggregate → Kind
  | .style s => .styleMark s
  | .bracket b => .bracketStart b
  | .line l => .lineMark l

/-- The token that closes the aggregate. -/
def endedBy : Aggregate → Kind
  | .style s => .styleMark s
  | .bracket b => .bracketEnd b
  | .line _ => .newline

/-- Name of the aggregate. -/
def name : Aggregate → String
  | .style s => s.name ++ "_aggregate"
  | .bracket b => b.name
  | .line .blockquote => "blockquote_aggregate"
  | .line .directive => "directive"

/-- Whether the aggregate must have children; an empty one is removed. Only a directive may do
without. -/
def needsChildren : Aggregate → Bool
  | .line .directive => false
  | _ => true

/-- Whether the aggregate may stand at the root only. -/
def rootOnly : Aggregate → Bool
  | .line _ => true
  | _ => false

/-- Whether no child may be of a kind that can have children itself. -/
def flat : Aggregate → Bool
  | .bracket _ => true
  | .line .directive => true
  | _ => false

/-- Whether the only child allowed is a single text. -/
def singleText : Aggregate → Bool
  | .bracket .noteRef => true
  | _ => false

/-- Level of a heading. -/
def headingLevel? : Aggregate → Option HeadingLevel
  | .style (.heading level) => some level
  | _ => none

/-- Whether the aggregate stands beside paragraphs, never inside one. -/
def isBlock : Aggregate → Bool
  | .style (.heading _) => true
  | .line .blockquote => true
  | .bracket .embeddedFile => true
  | _ => false

end Aggregate

namespace Kind

/-- Name of the kind in messages and outlines. -/
def name : Kind → String
  | .documentRoot => "document_root"
  | .newline => "newline"
  | .text => "text"
  | .backslash => "backslash"
  | .styleMark s => s.name
  | .bracketStart b => b.name ++ "_start"
  | .bracketEnd b => b.name ++ "_end"
  | .lineMark .blockquote => "blockquote"
  | .lineMark .directive => "directive_start"
  | .aggregate a => a.name
  | .paragraph => "paragraph"
  | .ready => "html_ready"
  | .container => "html_container"

/-- Levels of headings, ascending. -/
def headingLevels : List HeadingLevel := [.two, .three, .four, .five, .six]

/-- Styles that are no headings, in catalog order. -/
def textStyles : List Style := [.em, .bold, .emBold, .strikethrough]

/-- The marker of a style and the aggregate it opens. -/
def ofStyle (style : Style) : List Kind := [.styleMark style, .aggregate (.style style)]

/-- The marker of a line construct and the aggregate it opens. -/
def ofLine (line : LineConstruct) : List Kind := [.lineMark line, .aggregate (.line line)]

/-- The markers of a bracketed construct and the aggregate between them. -/
def ofBracket (bracket : Bracket) : List Kind :=
  [.bracketStart bracket, .bracketEnd bracket, .aggregate (.bracket bracket)]

/-- Every kind once, in catalog order. -/
def all : List Kind :=
  List.flatten
    [ [.documentRoot, .newline, .text, .backslash]
    , textStyles.flatMap ofStyle
    , headingLevels.map fun level => .styleMark (.heading level)
    , headingLevels.map fun level => .aggregate (.style (.heading level))
    , [LineConstruct.blockquote, .directive].flatMap ofLine
    , [Bracket.externalLink, .embeddedFile, .noteRef].flatMap ofBracket
    , [.paragraph, .ready, .container] ]

/-- The kind of a given name. -/
def ofName? (name : String) : Option Kind := all.find? (·.name == name)

/-- Number of characters of a marker whose length is fixed. -/
def markLength? : Kind → Option Nat
  | .newline | .backslash => some 1
  | .styleMark s => some s.markLength
  | .bracketStart b | .bracketEnd b => some b.markLength
  | .lineMark .blockquote => some 1
  | _ => none

/-- The aggregate that a marker opens. -/
def starts? : Kind → Option Aggregate
  | .styleMark s => some (.style s)
  | .bracketStart b => some (.bracket b)
  | .lineMark l => some (.line l)
  | _ => none

/-- The aggregate that a node of this kind is. -/
def aggregate? : Kind → Option Aggregate
  | .aggregate a => some a
  | _ => none

/-- Whether nodes of this kind can have children. -/
def canHaveChildren : Kind → Bool
  | .documentRoot | .aggregate _ | .paragraph | .container => true
  | _ => false

/-- Whether the kind belongs to nodes of the tree and to no token. -/
def isProcessed : Kind → Bool
  | .ready => true
  | kind => kind.canHaveChildren

/-- Whether a node of this kind must have children. -/
def needsChildren (kind : Kind) : Bool := kind.aggregate?.any Aggregate.needsChildren

/-- Whether a node of this kind may stand at the root only. -/
def rootOnly (kind : Kind) : Bool := kind.aggregate?.any Aggregate.rootOnly

/-- Whether a node of this kind has no child of a kind that can have children. -/
def flat (kind : Kind) : Bool := kind.aggregate?.any Aggregate.flat

/-- Whether a node of this kind holds a single text if anything. -/
def singleText (kind : Kind) : Bool := kind.aggregate?.any Aggregate.singleText

/-- Whether nodes of this kind stand beside paragraphs. -/
def isBlock (kind : Kind) : Bool := kind.aggregate?.any Aggregate.isBlock

/-- Level of a heading. -/
def headingLevel? (kind : Kind) : Option HeadingLevel :=
  kind.aggregate?.bind Aggregate.headingLevel?

/-- The heading marker written with a given number of equals signs. -/
def headingMark? (count : Nat) : Option Kind :=
  (HeadingLevel.ofNumber? count).map fun level => .styleMark (.heading level)

theorem starts?_eq_some_iff {kind : Kind} {a : Aggregate} :
    kind.starts? = some a ↔ kind = a.startedBy := by
  cases kind <;> cases a <;> simp [starts?, Aggregate.startedBy]

end Kind

end PageMarkup
