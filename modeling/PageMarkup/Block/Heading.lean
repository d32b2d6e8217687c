import PageMarkup.Slug
import PageMarkup.Tree.Pruning

/-!
# Headings

Headings are trimmed, and those without content are taken out. Every heading that is left gets an
id of its own from a slugger that knows the ids already in use, and an entry in the outline of the
page.
-/

namespace PageMarkup

/-- An entry in the outline of a page. -/
structure Heading where
  depth : Nat
  slug : String
  text : String
  deriving DecidableEq, Repr

/-- Whether the tree is a heading. -/
def Tree.isHeading (tree : Tree) : Bool := tree.kind.headingLevel?.isSome

namespace Tree

mutual

/-- A tree whose headings are trimmed. -/
def trimHeadings : Tree → Tree
  | .node data children =>
    let inner := forestTrimHeadings children
    .node data (if data.kind.headingLevel?.isSome then inner.trimEdges else inner)

/-- A forest whose headings are trimmed. -/
def forestTrimHeadings : Forest → Forest
  | [] => []
  | tree :: rest => trimHeadings tree :: forestTrimHeadings rest

end

mutual

/-- Draws slugs for the headings of a tree in preorder and gives them their elements. -/
def slugHeadings (slugger : Slugger) : Tree → Tree × List Heading × Slugger
  | .node data children =>
    match data.kind.headingLevel? with
    | some level =>
      let text := textContent (.node data children)
      let (slug, slugger) := slugger.next text
      let (inner, headings, slugger) := forestSlugHeadings slugger children
      let element := { tag := "h" ++ toString level.number, attributes := [("id", slug)] }
      (.node { data with element := some element } inner,
        ⟨level.number, slug, text⟩ :: headings, slugger)
    | none =>
      let (inner, headings, slugger) := forestSlugHeadings slugger children
      (.node data inner, headings, slugger)

/-- Draws slugs for the headings of a forest in preorder and gives them their elements. -/
def forestSlugHeadings (slugger : Slugger) : Forest → Forest × List Heading × Slugger
  | [] => ([], [], slugger)
  | tree :: rest =>
    let (first, headings, slugger) := slugHeadings slugger tree
    let (others, more, slugger) := forestSlugHeadings slugger rest
    (first :: others, headings ++ more, slugger)

end

end Tree

namespace Forest

/-- Trims the headings of a page and takes out those without content. -/
def dropBlankHeadings (forest : Forest) : Forest × List Notice :=
  let (kept, removals) := (Tree.forestTrimHeadings forest).removeWhere fun tree =>
    tree.isHeading && tree.isLeaf
  (kept, removals.flatMap fun removal =>
    (removal.removed.map Node.emptyNotice).toList ++ removal.notices)

/-- Ids that no heading may take, whether or not the page has an element with them. -/
def fixedIds : List String := ["article-title", "bottom-refs"]

/-- The ids of the elements of a forest. -/
def ids (forest : Forest) : List String :=
  forest.preorder.filterMap fun data => data.element.bind (·.attribute? "id")

/-- A slugger that knows the fixed ids and those of a forest. -/
def reservingSlugger (forest : Forest) : Slugger :=
  (fixedIds ++ forest.ids).eraseDups.foldl Slugger.reserve {}

/-- Gives every heading an id and lists the headings. -/
def slugHeadings (forest : Forest) : Forest × List Heading :=
  let (slugged, headings, _) := Tree.forestSlugHeadings forest.reservingSlugger forest
  (slugged, headings)

end Forest

end PageMarkup
