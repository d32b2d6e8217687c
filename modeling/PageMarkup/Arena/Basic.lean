import PageMarkup.Tree.Basic

/-!
# Arenas

An arena holds the nodes of trees under numbers that stay the same while the trees are rearranged.
A node knows its parent, its neighbours and its first and last child, so that it is linked and
unlinked without a search. Removing a node frees its slot, and the slot freed last is used first.

Operations look at nodes by number and fail when one of them has been removed. They take links on
trust: linking a node that is still linked elsewhere, or a sibling without a parent, leaves exactly
the links that the operation says.
-/

namespace PageMarkup

/-- A node with its links to others. -/
structure Cell where
  data : Node
  parent : Option Nat := none
  previous : Option Nat := none
  next : Option Nat := none
  first : Option Nat := none
  last : Option Nat := none
  deriving DecidableEq, Repr

/-- Whether the node has no children. -/
def Cell.isLeaf (cell : Cell) : Bool := cell.first.isNone

/-- Numbered nodes. -/
structure Arena where
  /-- The slots; `none` for a free one. -/
  slots : Array (Option Cell)
  /-- The free slots, the one freed last at the head. -/
  free : List Nat
  deriving DecidableEq, Repr

/-- What goes wrong when an arena is used. -/
inductive ArenaFault where
  /-- The number belongs to no node any more. -/
  | removed (id : Nat)
  deriving DecidableEq, Repr

/-- The wording of a fault. -/
def ArenaFault.message : ArenaFault → String
  | .removed id => "node " ++ toString id ++ " was removed"

namespace Arena

/-- The number of the root of a new arena. -/
def root : Nat := 0

/-- An arena that holds the root of a document only. -/
def new : Arena := ⟨#[some { data := { kind := .documentRoot } }], []⟩

/-- Number of nodes. -/
def size (arena : Arena) : Nat := arena.slots.size - arena.free.length

/-- Whether one node is left. -/
def isEmpty (arena : Arena) : Bool := arena.size == 1

/-- The node of a number. -/
def get? (arena : Arena) (id : Nat) : Option Cell := arena.slots[id]?.join

/-- The node of a number, which must not have been removed. -/
def get (arena : Arena) (id : Nat) : Except ArenaFault Cell :=
  match arena.get? id with
  | some cell => .ok cell
  | none => .error (.removed id)

/-- Changes the node of a number. -/
def modify (arena : Arena) (id : Nat) (f : Cell → Cell) : Except ArenaFault Arena := do
  let cell ← arena.get id
  return { arena with slots := arena.slots.setIfInBounds id (some (f cell)) }

/-- Changes the node of a number if there is a number. -/
def modify? (arena : Arena) (id : Option Nat) (f : Cell → Cell) : Except ArenaFault Arena :=
  match id with
  | some id => arena.modify id f
  | none => .ok arena

/-- Stores a node without links and returns its number. -/
def alloc (arena : Arena) (data : Node) : Nat × Arena :=
  match arena.free with
  | id :: free => (id, ⟨arena.slots.setIfInBounds id (some { data }), free⟩)
  | [] => (arena.slots.size, { arena with slots := arena.slots.push (some { data }) })

/-- Links a node as the last child of another. -/
def append (arena : Arena) (parent child : Nat) : Except ArenaFault Arena := do
  let last := (← arena.get parent).last
  let arena ← arena.modify child fun cell =>
    { cell with parent := some parent, previous := last, next := none }
  let arena ←
    match last with
    | some last => arena.modify last fun cell => { cell with next := some child }
    | none => arena.modify parent fun cell => { cell with first := some child }
  arena.modify parent fun cell => { cell with last := some child }

/-- Stores a node as the last child of another. -/
def push (arena : Arena) (parent : Nat) (data : Node) : Except ArenaFault (Nat × Arena) := do
  let (id, arena) := arena.alloc data
  return (id, ← arena.append parent id)

/-- Links a node right before a sibling. -/
def insertBefore (arena : Arena) (sibling id : Nat) : Except ArenaFault Arena := do
  let cell ← arena.get sibling
  let arena ← arena.modify id fun inserted =>
    { inserted with parent := cell.parent, previous := cell.previous, next := some sibling }
  let arena ← arena.modify sibling fun cell => { cell with previous := some id }
  match cell.previous with
  | some previous => arena.modify previous fun cell => { cell with next := some id }
  | none => arena.modify? cell.parent fun cell => { cell with first := some id }

/-- Links a node as the first child of another. -/
def prepend (arena : Arena) (parent child : Nat) : Except ArenaFault Arena := do
  match (← arena.get parent).first with
  | some first => arena.insertBefore first child
  | none => arena.append parent child

/-- Unlinks a node from its parent and its neighbours. What is below it stays below it. -/
def detach (arena : Arena) (id : Nat) : Except ArenaFault Arena := do
  let cell ← arena.get id
  let arena ←
    match cell.previous with
    | some previous => arena.modify previous fun other => { other with next := cell.next }
    | none => arena.modify? cell.parent fun other => { other with first := cell.next }
  let arena ←
    match cell.next with
    | some next => arena.modify next fun other => { other with previous := cell.previous }
    | none => arena.modify? cell.parent fun other => { other with last := cell.previous }
  arena.modify id fun cell => { cell with parent := none, previous := none, next := none }

/-- A number that no chain of distinct nodes exceeds. -/
def bound (arena : Arena) : Nat := arena.slots.size + 1

/-- The numbers along a chain of neighbours, given the link to follow. -/
def chain (arena : Arena) (link : Cell → Option Nat) : Nat → Option Nat →
    Except ArenaFault (List Nat)
  | _, none => .ok []
  | 0, some _ => .ok []
  | fuel + 1, some id => do
    let cell ← arena.get id
    return id :: (← chain arena link fuel (link cell))

/-- The children of a node, from the first on. -/
def children (arena : Arena) (id : Nat) : Except ArenaFault (List Nat) := do
  arena.chain Cell.next arena.bound (← arena.get id).first

/-- The children of a node, from the last back. -/
def childrenBackward (arena : Arena) (id : Nat) : Except ArenaFault (List Nat) := do
  arena.chain Cell.previous arena.bound (← arena.get id).last

/-- Frees the nodes on a stack and everything below them. A node is freed after its children were
put on the stack, the last of them on top. -/
def release : Nat → Arena → List Nat → Except ArenaFault Arena
  | _, arena, [] => .ok arena
  | 0, arena, _ :: _ => .ok arena
  | fuel + 1, arena, id :: stack => do
    let below ← arena.children id
    release fuel ⟨arena.slots.setIfInBounds id none, id :: arena.free⟩ (below.reverse ++ stack)

/-- Unlinks a node and frees it with everything below it. -/
def remove (arena : Arena) (id : Nat) : Except ArenaFault Arena := do
  let arena ← arena.detach id
  release arena.bound arena [id]

/-- Removes every child of a node. -/
def clear (arena : Arena) (id : Nat) : Except ArenaFault Arena := do
  (← arena.children id).foldlM remove arena

/-- Moves every child of a node to the end of the children of another. -/
def moveChildren (arena : Arena) (source target : Nat) : Except ArenaFault Arena := do
  (← arena.children source).foldlM
    (fun arena child => do (← arena.detach child).append target child) arena

end Arena

end PageMarkup
