import PageMarkup.Text.Blank
import PageMarkup.Tree.Rewrite

/-!
# External links

The content of a link is its target, then white space, then a label. Without a label the target is
shown. Links open in a new browsing context that learns nothing about the page. A link without a
target is taken out.
-/

namespace PageMarkup

namespace Link

/-- Relation of a page to what it links to in a new browsing context. -/
def newContextRel : String := "noopener noreferrer"

/-- Attributes of a link that opens in a new browsing context. -/
def newContextAttributes (href : String) : List (String × String) :=
  [("href", href), ("target", "_blank"), ("rel", newContextRel)]

/-- Target and label of a link with the given content. -/
def targetAndLabel (content : String) : String × String :=
  let content := Text.trim content
  let (target, rest) := Text.splitBefore Text.isBlank content
  let label := Text.trim rest
  if label.isEmpty then (content, content) else (target, label)

/-- What takes the place of an external link. -/
def resolveExternal? (tree : Tree) : Option (Forest × List Notice) :=
  if tree.kind = .aggregate (.bracket .externalLink) then
    let (target, label) := targetAndLabel tree.textContent
    if target.isEmpty then some ([], [⟨.linkWithoutTarget, some tree.data.offset⟩])
    else
      let element :=
        { tag := "a", attributes := newContextAttributes target, content := some label }
      some ([.leaf { tree.data with kind := .ready, element := some element }], [])
  else none

/-- Resolves the external links of a page. -/
def resolveExternals (forest : Forest) : Forest × List Notice :=
  Tree.forestExpand resolveExternal? forest

end Link

end PageMarkup
