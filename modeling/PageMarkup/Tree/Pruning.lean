import PageMarkup.Diagnostic.Notice
import PageMarkup.Tree.Edges

/-!
# Pruning

An aggregate without content has nothing to show. Two operations keep trees free of them.
`pruneEmpty` removes, from the leaves up, every node that must have children and has none.
`removeAt` takes out one subtree and climbs: an ancestor that is emptied by the removal goes too,
and a paragraph is trimmed before it is asked whether it is empty.
-/

namespace PageMarkup

namespace Node

/-- The warning that a node was removed because it was empty. -/
def emptyNotice (node : Node) : Notice := ⟨.emptyRemoved node.kind, some node.offset⟩

/-- The warning about an emptied ancestor. Paragraphs go silently. -/
def emptiedNotice? (node : Node) : Option Notice :=
  if node.kind.needsChildren then some node.emptyNotice else none

end Node

namespace Tree

mutual

/-- What is left of a tree without empty aggregates, and the warnings, last node first. -/
def pruneEmpty : Tree → Forest × List Notice
  | .node data children =>
    let (kept, notices) := forestPruneEmpty children
    if data.kind.needsChildren ∧ kept.isEmpty then ([], notices ++ [data.emptyNotice])
    else ([.node data kept], notices)

/-- What is left of a forest without empty aggregates, and the warnings, last node first. -/
def forestPruneEmpty : Forest → Forest × List Notice
  | [] => ([], [])
  | tree :: rest =>
    let (keptRest, noticesRest) := forestPruneEmpty rest
    let (kept, notices) := pruneEmpty tree
    (kept ++ keptRest, noticesRest ++ notices)

end

mutual

/-- Path to the first subtree, in preorder, that satisfies `p`. -/
def findPath? (p : Tree → Bool) : Tree → Option (List Nat)
  | .node data children =>
    if p (.node data children) then some [] else forestFindPath? p 0 children

/-- Path to the first subtree of a forest that satisfies `p`; the trees are counted from
`index`. -/
def forestFindPath? (p : Tree → Bool) (index : Nat) : Forest → Option (List Nat)
  | [] => none
  | tree :: rest =>
    match findPath? p tree with
    | some path => some (index :: path)
    | none => forestFindPath? p (index + 1) rest

end

end Tree

/-- The outcome of taking a subtree out of a forest. -/
structure Removal where
  /-- What is left. -/
  rest : Forest
  /-- The root of the subtree that was taken out. -/
  removed : Option Node := none
  /-- The ancestors that were emptied and removed, innermost first. -/
  emptied : List Node := []
  /-- Whether one of the trees of the forest itself is gone. -/
  cut : Bool := false
  deriving Repr

namespace Removal

/-- The warnings about emptied ancestors. -/
def notices (removal : Removal) : List Notice := removal.emptied.filterMap Node.emptiedNotice?

end Removal

namespace Forest

/-- A forest without empty aggregates. -/
def pruneEmpty (forest : Forest) : Forest × List Notice := Tree.forestPruneEmpty forest

/-- The children of a node after one of them was taken out. -/
def settle (data : Node) (children : Forest) : Forest :=
  if data.kind = .paragraph then children.trimEdges else children

/-- Whether a node that lost a child goes as well once it has none left. -/
def goesWhenEmpty (data : Node) : Bool := data.kind == .paragraph || data.kind.needsChildren

/-- Takes out the subtree at a path and the ancestors that are emptied by that. -/
def removeAt : List Nat → Forest → Removal
  | [], forest => { rest := forest }
  | index :: path, forest =>
    match forest[index]? with
    | none => { rest := forest }
    | some tree =>
      if path.isEmpty then
        { rest := forest.eraseIdx index, removed := some tree.data, cut := true }
      else
        let inner := removeAt path tree.children
        let children := if inner.cut then settle tree.data inner.rest else inner.rest
        if inner.cut ∧ goesWhenEmpty tree.data ∧ children.isEmpty then
          { inner with
            rest := forest.eraseIdx index
            emptied := inner.emptied ++ [tree.data] }
        else
          { inner with
            rest := forest.set index (.node tree.data children)
            cut := false }

/-- Takes out the first subtree that satisfies `p`, `count` times over. -/
def removeTimes (p : Tree → Bool) : Nat → Forest → Forest × List Removal
  | 0, forest => (forest, [])
  | count + 1, forest =>
    match Tree.forestFindPath? p 0 forest with
    | none => (forest, [])
    | some path =>
      let removal := removeAt path forest
      let (rest, removals) := removeTimes p count removal.rest
      (rest, removal :: removals)

/-- Takes out every subtree that satisfies `p`, in preorder. -/
def removeWhere (p : Tree → Bool) (forest : Forest) : Forest × List Removal :=
  removeTimes p (forest.subtrees.countP p) forest

end Forest

end PageMarkup
