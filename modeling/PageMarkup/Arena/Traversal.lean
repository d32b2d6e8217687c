import PageMarkup.Arena.Basic
import PageMarkup.Html
import PageMarkup.Text.Blank
import PageMarkup.Tree.Outline

/-!
# Reading arenas

What lies below a node is read by following links. Depth and breadth are bounded by the number of
slots, which no tree in the arena exceeds. Writing a tree as HTML ends where the links do.
-/

namespace PageMarkup

namespace Arena

/-- A node and everything below it in preorder, down to a depth. Children are found from the last
one back. -/
def descendantsWithin (arena : Arena) : Nat → Nat → Except ArenaFault (List Nat)
  | 0, _ => .ok []
  | depth + 1, id => do
    let children := (← arena.childrenBackward id).reverse
    return id :: (← children.mapM (descendantsWithin arena depth)).flatten

/-- A node and everything below it in preorder. -/
def descendants (arena : Arena) (id : Nat) : Except ArenaFault (List Nat) :=
  arena.descendantsWithin arena.bound id

/-- The text of a leaf; nothing for a node with children. -/
def leafText (cell : Cell) : String := if cell.isLeaf then cell.data.literal else ""

/-- The text below a node, without any markup. -/
def textContent (arena : Arena) (id : Nat) : Except ArenaFault String := do
  let ids ← arena.descendants id
  let cells ← ids.mapM arena.get
  return String.join (cells.map leafText)

/-- The lines of the outline below a node, down to a depth. -/
def outlineWithin (arena : Arena) : Nat → Nat → Nat → Except ArenaFault String
  | 0, _, _ => .ok ""
  | fuel + 1, depth, id => do
    let cell ← arena.get id
    let below ← (← arena.children id).mapM (outlineWithin arena fuel (depth + 1))
    return cell.data.outlineLine depth ++ String.join below

/-- The outline of the tree at a node. -/
def outline (arena : Arena) (id : Nat) : Except ArenaFault String :=
  arena.outlineWithin arena.bound 0 id

/-- What is left to write: a node with everything below it, or a closing tag. -/
inductive WriteStep where
  | enter (id : Nat)
  | exit (tag : String)
  deriving DecidableEq, Repr

/-- What a step writes, and the steps that it leaves to do first. Nothing is written for the node
`skip`. -/
def writeStep (arena : Arena) (skip : Option Nat) :
    WriteStep → Except ArenaFault (String × List WriteStep)
  | .exit tag => .ok (Html.renderClose tag, [])
  | .enter id =>
    if skip = some id then .ok ("", [])
    else do
      let cell ← arena.get id
      match cell.data.element with
      | some element =>
        if cell.data.kind = .container ∨ ¬ cell.isLeaf then
          let below := (← arena.children id).map .enter
          return (Html.renderOpen element, below ++ [.exit element.tag])
        else return (Html.renderWhole element, [])
      | none =>
        if cell.isLeaf then return (Html.escapeText cell.data.text, [])
        else return ("", (← arena.children id).map .enter)

/-- Does the first step on the stack, or ends with what has been written if there is none. -/
def writeNext (arena : Arena) (skip : Option Nat) :
    String × List WriteStep → Except ArenaFault ((String × List WriteStep) ⊕ String)
  | (written, []) => .ok (.inr written)
  | (written, step :: stack) => do
    let (text, steps) ← arena.writeStep skip step
    return .inl (written ++ text, steps ++ stack)

/-- Writes what is on a stack after what has been written already. -/
def write (arena : Arena) (skip : Option Nat) (written : String) (stack : List WriteStep) :
    Except ArenaFault String :=
  repeatM (arena.writeNext skip) (written, stack)

/-- The HTML of the tree at a node, without the tree at `skip`. However deep the tree is, the nodes
that are still open are on a stack. -/
def html (arena : Arena) (id : Nat) (skip : Option Nat) : Except ArenaFault String :=
  arena.write skip "" [.enter id]

/-- Whether a node is a leaf that holds nothing but text. -/
def isTextLeaf (cell : Cell) : Bool :=
  cell.isLeaf && cell.data.element.isNone && (cell.data.kind == .text || cell.data.kind == .ready)

/-- Removes blank text leaves from one end of the children of a node and trims the text leaf that
is then outermost. -/
def trimEnd (outermost : Cell → Option Nat) (trimText : String → String) (id : Nat) :
    Nat → Arena → Except ArenaFault Arena
  | 0, arena => .ok arena
  | fuel + 1, arena => do
    match outermost (← arena.get id) with
    | none => return arena
    | some child =>
      let cell ← arena.get child
      if isTextLeaf cell then
        if Text.isBlankText cell.data.text then
          trimEnd outermost trimText id fuel (← arena.remove child)
        else
          arena.modify child fun cell =>
            { cell with data := { cell.data with text := trimText cell.data.text } }
      else return arena

/-- Trims the text leaves at both ends of the children of a node. -/
def trimEdges (arena : Arena) (id : Nat) : Except ArenaFault Arena := do
  let arena ← trimEnd Cell.first Text.trimStart id arena.bound arena
  trimEnd Cell.last Text.trimEnd id arena.bound arena

end Arena

end PageMarkup
