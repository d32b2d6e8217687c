import PageMarkup.Arena.Traversal
import PageMarkup.Tree.Nesting

/-!
# Nesting in an arena

Lexemes are nested into a new arena from left to right. The aggregates that are open form a stack
of numbers, and every node is linked under the innermost of them as soon as it is made; an
aggregate learns its closing marker when that is met.
-/

namespace PageMarkup

/-- An arena while lexemes are nested into it. -/
structure Building where
  arena : Arena := .new
  /-- The open aggregates, innermost first. -/
  stack : List Nat := []
  deriving Repr

namespace Building

/-- What a node is when its closing marker is met. -/
def closed (closer : Span) (data : Node) : Node :=
  { data with closer := some closer, span := data.span.cover closer }

/-- An aggregate as it is opened. -/
def opened (aggregate : Aggregate) (opener : Span) : Node :=
  { kind := .aggregate aggregate, span := opener, opener := some opener }

/-- The arena after a lexeme that does not close the innermost aggregate, which is `top`. -/
def enter (building : Building) (top : Nat) (lexeme : Lexeme) : Except ArenaFault Building := do
  match lexeme.kind.starts? with
  | some aggregate =>
    let (id, arena) ← building.arena.push top (opened aggregate lexeme.span)
    return ⟨arena, id :: building.stack⟩
  | none =>
    let (_, arena) ← building.arena.push top (Nesting.leafOf lexeme).data
    return { building with arena }

/-- The arena after one more lexeme. -/
def step (building : Building) (lexeme : Lexeme) : Except ArenaFault Building := do
  match building.stack with
  | [] =>
    let _ ← building.arena.get Arena.root
    building.enter Arena.root lexeme
  | top :: outer =>
    let cell ← building.arena.get top
    if cell.data.kind.aggregate?.map Aggregate.endedBy = some lexeme.kind then
      let arena ← building.arena.modify top fun cell =>
        { cell with data := closed lexeme.span cell.data }
      return ⟨arena, outer⟩
    else building.enter top lexeme

/-- The fault of an aggregate that stayed open. -/
def unclosed (data : Node) : Fault Nat :=
  .unclosedAggregate ((data.kind.aggregate?.map Aggregate.startedBy).getD data.kind).name
    (data.opener.getD data.span).start

/-- The finished arena, or the fault of the innermost aggregate that is open. -/
def finish (building : Building) : Except ArenaFault (Except (Fault Nat) Arena) := do
  match building.stack with
  | [] => return .ok building.arena
  | top :: _ => return .error (unclosed (← building.arena.get top).data)

end Building

/-- The arena that lexemes nest into. -/
def Arena.build (lexemes : List Lexeme) : Except ArenaFault (Except (Fault Nat) Arena) := do
  (← lexemes.foldlM Building.step {}).finish

end PageMarkup
