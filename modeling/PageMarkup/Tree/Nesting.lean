import PageMarkup.Diagnostic.Fault
import PageMarkup.Lexeme
import PageMarkup.Tree.Basic

/-!
# Nesting

Lexemes are nested into a forest from left to right. The aggregates that are open at some point
form a stack. A lexeme that closes the innermost of them closes it; a lexeme that opens an
aggregate opens it; any other is a leaf. A closing marker with nothing to close is a leaf as well,
so the only thing that can go wrong is an aggregate that stays open.
-/

namespace PageMarkup

/-- An aggregate that has not been closed yet. -/
structure Pending where
  aggregate : Aggregate
  /-- The marker that opened it. -/
  opener : Span
  /-- The trees before it on its level, latest first. -/
  before : Forest
  deriving Repr

/-- The state of nesting after some lexemes. -/
structure Nesting where
  /-- The open aggregates, innermost first. -/
  pending : List Pending := []
  /-- The trees on the innermost level, latest first. -/
  level : Forest := []
  deriving Repr

namespace Nesting

/-- The leaf of a lexeme that neither opens nor closes anything. -/
def leafOf (lexeme : Lexeme) : Tree :=
  .leaf { kind := lexeme.kind, span := lexeme.span, text := lexeme.text }

/-- The tree of an aggregate with the given children. -/
def close (pending : Pending) (closer : Span) (children : Forest) : Tree :=
  .node
    { kind := .aggregate pending.aggregate
      span := pending.opener.cover closer
      opener := some pending.opener
      closer := some closer }
    children

/-- The state after a lexeme that does not close the innermost aggregate. -/
def enter (state : Nesting) (lexeme : Lexeme) : Nesting :=
  match lexeme.kind.starts? with
  | some aggregate => ⟨⟨aggregate, lexeme.span, state.level⟩ :: state.pending, []⟩
  | none => ⟨state.pending, leafOf lexeme :: state.level⟩

/-- The state after one more lexeme. -/
def step (state : Nesting) (lexeme : Lexeme) : Nesting :=
  match state.pending with
  | [] => state.enter lexeme
  | innermost :: outer =>
    if lexeme.kind = innermost.aggregate.endedBy then
      ⟨outer, close innermost lexeme.span state.level.reverse :: innermost.before⟩
    else state.enter lexeme

/-- The forest of a finished nesting. An open aggregate is reported by its marker; of several, the
innermost. -/
def finish (state : Nesting) : Except (Fault Nat) Forest :=
  match state.pending with
  | [] => .ok state.level.reverse
  | innermost :: _ =>
    .error (.unclosedAggregate innermost.aggregate.startedBy.name innermost.opener.start)

end Nesting

/-- The forest that lexemes nest into. -/
def Forest.ofLexemes (lexemes : List Lexeme) : Except (Fault Nat) Forest :=
  (lexemes.foldl Nesting.step {}).finish

end PageMarkup
