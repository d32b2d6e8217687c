import Mathlib.Data.List.Forall2
import PageMarkup.Block.Paragraph
import PageMarkup.Html
import PageMarkup.Link.Embed
import PageMarkup.Proofs.Tree.Subtrees
import PageMarkup.Slug
import PageMarkup.Tree.Edges

/-! # Pages that are alike

Two pages are compared node by node. A likeness says which texts stand for each other and
whether corresponding nodes must stand at the same places; its laws are what the passes
ask of texts. Trees are alike when they have the same shape and corresponding nodes are
alike. What a registry puts into a page is the same on both sides.
-/

namespace PageMarkup

/-- Which texts of two pages stand for each other. -/
structure Likeness where
  /-- The texts of leaves, and what is cut out of them. -/
  text : String → String → Prop
  /-- Whether nodes that correspond stand at the same places. -/
  placed : Prop
  plain : ∀ {a}, (∀ c ∈ a.toList, c ≠ '\r' ∧ c ≠ '\n') → text a a
  append : ∀ {a b c d}, text a b → text c d → text (a ++ c) (b ++ d)
  isEmpty : ∀ {a b}, text a b → a.isEmpty = b.isEmpty
  isBlank : ∀ {a b}, text a b → Text.isBlankText a = Text.isBlankText b
  trimStart : ∀ {a b}, text a b → text (Text.trimStart a) (Text.trimStart b)
  trimEnd : ∀ {a b}, text a b → text (Text.trimEnd a) (Text.trimEnd b)
  link : ∀ {a b}, text a b →
    text (Link.targetAndLabel a).1 (Link.targetAndLabel b).1 ∧
      text (Link.targetAndLabel a).2 (Link.targetAndLabel b).2
  embed : ∀ {a b}, text a b →
    (Embed.parse a).name = (Embed.parse b).name ∧ (Embed.parse a).width = (Embed.parse b).width ∧
      (Embed.parse a).align = (Embed.parse b).align ∧
      Option.Rel text (Embed.parse a).caption (Embed.parse b).caption
  slug : ∀ {as bs}, List.Forall₂ (fun a b => a = b ∨ text a b) as bs →
    baseSlug (String.join as) = baseSlug (String.join bs)

namespace Likeness

variable (L : Likeness)

/-- Texts that are the same or stand for each other. -/
def Shown (a b : String) : Prop := a = b ∨ L.text a b

theorem empty : L.text "" "" := L.plain (by simp)

theorem trim {a b : String} (htext : L.text a b) : L.text (Text.trim a) (Text.trim b) :=
  L.trimEnd (L.trimStart htext)

theorem join {as bs : List String} (htexts : List.Forall₂ L.text as bs) :
    L.text (String.join as) (String.join bs) := by
  induction htexts with
  | nil => exact L.empty
  | cons hhead _ ih =>
      rw [String.join_cons, String.join_cons]
      exact L.append hhead ih

end Likeness

/-- Elements of the same form. Their contents are related by `C`, the values of their attributes
are the same or stand for each other, and ids are the same. -/
structure Element.Like (L : Likeness) (C : String → String → Prop) (element other : Element) :
    Prop where
  tag : element.tag = other.tag
  attributes : List.Forall₂
    (fun first second => first.1 = second.1 ∧ L.Shown first.2 second.2 ∧
      (first.1 = "id" → first.2 = second.2)) element.attributes other.attributes
  content : Option.Rel C element.content other.content

/-- Nodes of the same kind whose texts stand for each other. A text that may name a note is the
same. -/
structure Node.Like (L : Likeness) (C : String → String → Prop) (data other : Node) : Prop where
  kind : data.kind = other.kind
  text : L.text data.text other.text
  element : Option.Rel (Element.Like L C) data.element other.element
  named : data.kind = .text ∨ data.kind = .aggregate (.bracket .noteRef) →
    data.text = other.text ∧ data.element = none
  place : L.placed → data.span = other.span ∧ data.opener = other.opener

/-- Trees of the same shape whose nodes are alike. -/
inductive Tree.Like (L : Likeness) (C : String → String → Prop) : Tree → Tree → Prop where
  | node {data other : Node} {children others : Forest} :
      data.Like L C other → List.Forall₂ (Tree.Like L C) children others →
      Tree.Like L C (.node data children) (.node other others)

/-- Forests whose trees are alike one by one. -/
abbrev Forest.Like (L : Likeness) (C : String → String → Prop) : Forest → Forest → Prop :=
  List.Forall₂ (Tree.Like L C)

/-- Notices that say the same, at the same places if places count. -/
def Notice.Like (L : Likeness) (notices others : List Notice) : Prop :=
  L.placed → notices = others

variable {L : Likeness} {C : String → String → Prop}

theorem Notice.like_nil : Notice.Like L [] [] := fun _ => rfl

theorem Notice.Like.append {first second before after : List Notice}
    (hfirst : Notice.Like L first before) (hsecond : Notice.Like L second after) :
    Notice.Like L (first ++ second) (before ++ after) := fun hplaced => by
  rw [hfirst hplaced, hsecond hplaced]

namespace Element.Like

theorem attribute?_id {element other : Element} (hlike : element.Like L C other) :
    element.attribute? "id" = other.attribute? "id" := by
  have hattributes := hlike.attributes
  unfold attribute?
  generalize element.attributes = attributes, other.attributes = others at hattributes
  induction hattributes with
  | nil => rfl
  | @cons first second attributes others hentry _ ih =>
      obtain ⟨hname, -, hid⟩ := hentry
      rw [List.find?_cons, List.find?_cons, ← hname]
      cases hfirst : first.1 == "id" with
      | true => simp [hid (by simpa using hfirst)]
      | false => exact ih

/-- The same element on both sides. -/
theorem same {element : Element} (hcontent : ∀ content ∈ element.content, C content content) :
    element.Like L C element where
  tag := rfl
  attributes := List.forall₂_same.mpr fun entry _ => ⟨rfl, .inl rfl, fun _ => rfl⟩
  content := by
    cases hsome : element.content with
    | none => exact .none
    | some content => exact .some (hcontent content hsome)

theorem mono {element other : Element} {C' : String → String → Prop}
    (hC : ∀ a b, C a b → C' a b) (hlike : element.Like L C other) : element.Like L C' other where
  tag := hlike.tag
  attributes := hlike.attributes
  content := by
    have hcontent := hlike.content
    generalize element.content = content, other.content = others at hcontent
    cases hcontent with
    | none => exact .none
    | some hsome => exact .some (hC _ _ hsome)

end Element.Like

namespace Node.Like

variable {data other : Node}

theorem element_isNone (hlike : data.Like L C other) :
    data.element.isNone = other.element.isNone := by
  have helement := hlike.element
  generalize data.element = element, other.element = element' at helement
  cases helement <;> rfl

theorem offset (hlike : data.Like L C other) (hplaced : L.placed) :
    data.offset = other.offset := by
  obtain ⟨hspan, hopener⟩ := hlike.place hplaced
  simp [Node.offset, hspan, hopener]

theorem literal (hlike : data.Like L C other) (hC : ∀ {a b}, L.text a b → C a b) :
    C data.literal other.literal := by
  have helement := hlike.element
  unfold Node.literal
  generalize data.element = element, other.element = element' at helement
  cases helement with
  | none => exact hC hlike.text
  | some helement =>
      have hcontent := helement.content
      rename_i first second
      dsimp only
      generalize first.content = content, second.content = content' at hcontent
      cases hcontent with
      | none => exact hC L.empty
      | some hcontent => exact hcontent

/-- A node that says the same on both sides. -/
theorem same (htext : L.text data.text data.text)
    (helement : ∀ element ∈ data.element, ∀ content ∈ element.content, C content content)
    (hkind : data.kind = .text ∨ data.kind = .aggregate (.bracket .noteRef) →
      data.element = none) : data.Like L C data where
  kind := rfl
  text := htext
  element := by
    cases hsome : data.element with
    | none => exact .none
    | some element => exact .some (.same (helement element hsome))
  named hnamed := ⟨rfl, hkind hnamed⟩
  place _ := ⟨rfl, rfl⟩

/-- Nodes stay alike when they are given another kind and elements that are alike. -/
theorem withElement (hlike : data.Like L C other) {kind : Kind} {element element' : Element}
    (hkind : ¬(kind = .text ∨ kind = .aggregate (.bracket .noteRef)))
    (helement : element.Like L C element') :
    Node.Like L C { data with kind, element := some element }
      { other with kind, element := some element' } where
  kind := rfl
  text := hlike.text
  element := .some helement
  named hnamed := absurd hnamed hkind
  place := hlike.place

theorem mono {C' : String → String → Prop} (hC : ∀ a b, C a b → C' a b)
    (hlike : data.Like L C other) : data.Like L C' other where
  kind := hlike.kind
  text := hlike.text
  element := by
    have helement := hlike.element
    generalize data.element = element, other.element = element' at helement
    cases helement with
    | none => exact .none
    | some hsome => exact .some (hsome.mono hC)
  named := hlike.named
  place := hlike.place

end Node.Like

namespace Tree.Like

variable {tree other : Tree}

theorem data (hlike : tree.Like L C other) : tree.data.Like L C other.data := by
  cases hlike with
  | node hdata _ => exact hdata

theorem children (hlike : tree.Like L C other) : Forest.Like L C tree.children other.children := by
  cases hlike with
  | node _ hchildren => exact hchildren

theorem kind (hlike : tree.Like L C other) : tree.kind = other.kind := hlike.data.kind

theorem leaf {data other : Node} (hlike : data.Like L C other) :
    (Tree.leaf data).Like L C (.leaf other) := .node hlike .nil

theorem isLeaf (hlike : tree.Like L C other) : tree.isLeaf = other.isLeaf := by
  cases hlike with
  | node _ hchildren => cases hchildren <;> rfl

theorem isTextLeaf (hlike : tree.Like L C other) : tree.isTextLeaf = other.isTextLeaf := by
  cases hlike with
  | node hdata hchildren =>
      cases hchildren with
      | nil => simp [Tree.isTextLeaf, hdata.kind, hdata.element_isNone]
      | cons => rfl

/-- Trimming changes corresponding texts alike. -/
theorem withText (hlike : tree.Like L C other) {trimText : String → String}
    (htrim : ∀ {a b}, L.text a b → L.text (trimText a) (trimText b)) :
    (tree.withText (trimText tree.data.text)).Like L C
      (other.withText (trimText other.data.text)) := by
  cases hlike with
  | node hdata hchildren =>
      refine .node ⟨hdata.kind, htrim hdata.text, hdata.element, ?_, hdata.place⟩ hchildren
      intro hnamed
      obtain ⟨htext, helement⟩ := hdata.named hnamed
      exact ⟨congrArg trimText htext, helement⟩

end Tree.Like

namespace Forest.Like

variable {forest other : Forest}

theorem isEmpty (hlike : Forest.Like L C forest other) : forest.isEmpty = other.isEmpty := by
  cases hlike <;> rfl

theorem append {first second before after : Forest} (hfirst : Forest.Like L C first before)
    (hsecond : Forest.Like L C second after) :
    Forest.Like L C (first ++ second) (before ++ after) := List.rel_append hfirst hsecond

theorem reverse (hlike : Forest.Like L C forest other) :
    Forest.Like L C forest.reverse other.reverse := List.rel_reverse hlike

theorem filter {p : Tree → Bool} (hp : ∀ {tree other : Tree}, tree.Like L C other → p tree = p other)
    (hlike : Forest.Like L C forest other) :
    Forest.Like L C (forest.filter p) (other.filter p) := by
  induction hlike with
  | nil => exact .nil
  | cons htree _ ih =>
      rw [List.filter_cons, List.filter_cons, hp htree]
      split
      · exact .cons htree ih
      · exact ih

theorem dropWhile {p : Tree → Bool}
    (hp : ∀ {tree other : Tree}, tree.Like L C other → p tree = p other)
    (hlike : Forest.Like L C forest other) :
    Forest.Like L C (forest.dropWhile p) (other.dropWhile p) := by
  induction hlike with
  | nil => exact .nil
  | cons htree hrest ih =>
      rw [List.dropWhile_cons, List.dropWhile_cons, hp htree]
      split
      · exact ih
      · exact .cons htree hrest

theorem trimFront {trimText : String → String}
    (htrim : ∀ {a b}, L.text a b → L.text (trimText a) (trimText b))
    (hlike : Forest.Like L C forest other) :
    Forest.Like L C (Forest.trimFront trimText forest) (Forest.trimFront trimText other) := by
  induction hlike with
  | nil => exact .nil
  | cons htree hrest ih =>
      simp only [Forest.trimFront, htree.isTextLeaf, L.isBlank htree.data.text]
      split_ifs
      · exact ih
      · exact .cons (htree.withText htrim) hrest
      · exact .cons htree hrest

theorem trimEdges (hlike : Forest.Like L C forest other) :
    Forest.Like L C forest.trimEdges other.trimEdges :=
  ((hlike.trimFront L.trimStart).reverse.trimFront L.trimEnd).reverse

/-- The span of a run covers the spans of its trees. -/
theorem span (hlike : Forest.Like L C forest other) (hplaced : L.placed) :
    forest.span = other.span := by
  cases hlike with
  | nil => rfl
  | cons htree hrest =>
      simp only [Forest.span, (htree.data.place hplaced).1]
      generalize Node.span _ = start
      induction hrest generalizing start with
      | nil => rfl
      | cons hnext _ ih =>
          rw [List.foldl_cons, List.foldl_cons, (hnext.data.place hplaced).1]
          exact ih _

end Forest.Like

namespace Tree

mutual

/-- The texts of corresponding leaves are related. -/
theorem Like.leafTexts (hC : ∀ {a b}, L.text a b → C a b) {tree other : Tree}
    (hlike : tree.Like L C other) : List.Forall₂ C tree.leafTexts other.leafTexts := by
  cases tree with
  | node data children =>
      cases hlike with
      | node hdata hchildren =>
          cases hchildren with
          | nil => exact .cons (hdata.literal hC) .nil
          | cons hchild hrest =>
              exact forestLike_leafTexts hC (.cons hchild hrest)

theorem forestLike_leafTexts (hC : ∀ {a b}, L.text a b → C a b) {forest other : Forest}
    (hlike : Forest.Like L C forest other) :
    List.Forall₂ C (forestLeafTexts forest) (forestLeafTexts other) := by
  cases forest with
  | nil =>
      cases hlike
      exact .nil
  | cons tree rest =>
      cases hlike with
      | cons htree hrest =>
          exact List.rel_append (htree.leafTexts hC) (forestLike_leafTexts hC hrest)

end

theorem Like.textContent {tree other : Tree} (hlike : tree.Like L L.text other) :
    L.text tree.textContent other.textContent := L.join (hlike.leafTexts id)

end Tree

end PageMarkup
