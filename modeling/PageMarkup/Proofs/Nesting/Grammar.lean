import Mathlib.Data.List.Forall2
import PageMarkup.Tree.Nesting

/-! # The bracket grammar of pages

A forest is read from left to right as a sequence of marks: an aggregate as its
opening marker, its children and its closing marker, a leaf as itself. The
grammar says which forests nesting may produce. It mentions no stack: a marker
that opens an aggregate is never a leaf, and nothing inside an aggregate begins
with the token that would have closed it.
-/

namespace PageMarkup

/-- A token as a tree remembers it. The text of a marker is not kept, so it is
known for leaves only. -/
structure Mark where
  kind : Kind
  span : Span
  text : Option String := none
  deriving DecidableEq, Repr

/-- The mark may have come from the lexeme. -/
def Mark.Matches (mark : Mark) (lexeme : Lexeme) : Prop :=
  mark.kind = lexeme.kind ∧ mark.span = lexeme.span ∧ ∀ text ∈ mark.text, text = lexeme.text

/-- A lexeme as scanning leaves it: of no kind that only nodes of a tree have. -/
def Lexeme.IsRaw (lexeme : Lexeme) : Prop := lexeme.kind.isProcessed = false

/-- A token may stand right after another: the marks of line constructs stand at
the start of a line only. -/
def Kind.MayFollow (next previous : Kind) : Prop :=
  ∀ line, next = .lineMark line → previous = .newline

/-- The marks of line constructs stand first or right after a newline. -/
def Lexeme.LineMarksStartLines (lexemes : List Lexeme) : Prop :=
  lexemes.IsChain fun previous next => next.kind.MayFollow previous.kind

namespace Tree

mutual

/-- The marks of a tree. A marker that an aggregate lacks is left out. -/
def reading : Tree → List Mark
  | .node data children =>
    match data.kind with
    | .aggregate aggregate =>
      (data.opener.map fun span => { kind := aggregate.startedBy, span }).toList
        ++ forestReading children
        ++ (data.closer.map fun span => { kind := aggregate.endedBy, span }).toList
    | kind => { kind, span := data.span, text := some data.text } :: forestReading children

/-- The marks of a forest. -/
def forestReading : Forest → List Mark
  | [] => []
  | tree :: rest => reading tree ++ forestReading rest

end

/-- The first mark of the tree is of the kind. -/
def BeginsWith (kind : Kind) (tree : Tree) : Prop := ∃ mark ∈ tree.reading.head?, mark.kind = kind

/-- The trees that pair markers correctly. An aggregate has both of its markers
and covers what lies between them; no child of it begins with a token that
closes it. A leaf is a single lexeme that opens nothing. -/
inductive Grammatical : Tree → Prop where
  | leaf (lexeme : Lexeme) :
      lexeme.kind.aggregate? = none → lexeme.kind.starts? = none →
      Grammatical (Nesting.leafOf lexeme)
  | aggregate (aggregate : Aggregate) (opener closer : Span) (children : Forest) :
      (∀ child ∈ children, Grammatical child) →
      (∀ child ∈ children, ¬ child.BeginsWith aggregate.endedBy) →
      Grammatical
        (.node
          { kind := .aggregate aggregate
            span := opener.cover closer
            opener := some opener
            closer := some closer }
          children)

end Tree

namespace Forest

/-- The marks of a forest. -/
def reading (forest : Forest) : List Mark := Tree.forestReading forest

/-- Reading the forest gives the lexemes back, one mark for each of them. -/
def Spells (forest : Forest) (lexemes : List Lexeme) : Prop :=
  List.Forall₂ Mark.Matches forest.reading lexemes

/-- Every tree of the forest pairs its markers correctly. -/
def Grammatical (forest : Forest) : Prop := ∀ tree ∈ forest, tree.Grammatical

/-- No tree of the forest begins with a mark of the kind. -/
def Avoids (kind : Kind) (forest : Forest) : Prop := ∀ tree ∈ forest, ¬ tree.BeginsWith kind

end Forest

/-- The lexemes are the beginning of a document, and `innermost` is the marker of
the innermost aggregate that they leave open. After that marker come whole items,
none of which begins with the token that would close it; the marker itself closes
nothing around it. -/
inductive Lexeme.LeavesOpen : List Lexeme → Option Lexeme → Prop where
  | none {lexemes : List Lexeme} (items : Forest) :
      items.Grammatical → items.Spells lexemes → LeavesOpen lexemes none
  | some {before after : List Lexeme} {outer : Option Lexeme} (opener : Lexeme)
      (aggregate : Aggregate) (items : Forest) :
      LeavesOpen before outer →
      opener.kind.starts? = some aggregate →
      (∀ marker ∈ outer, ∀ enclosing, marker.kind.starts? = some enclosing →
        opener.kind ≠ enclosing.endedBy) →
      items.Grammatical → items.Avoids aggregate.endedBy → items.Spells after →
      LeavesOpen (before ++ opener :: after) (some opener)

end PageMarkup
