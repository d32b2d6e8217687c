import PageMarkup.Proofs.Likeness.Links
import PageMarkup.Proofs.Page.Finish

/-! # Likeness of finished pages

Headings that are alike are trimmed, taken out and numbered alike, since a slug does not
tell texts apart that stand for each other. Lowering keeps likeness, and pages that are
alike are written in pieces that are alike.
-/

namespace PageMarkup

variable {L : Likeness} {C : String → String → Prop}

/-- Entries of outlines with the same depth and slug, whose texts are made of texts that are
related. -/
structure Heading.Like (C : String → String → Prop) (heading other : Heading) : Prop where
  depth : heading.depth = other.depth
  slug : heading.slug = other.slug
  texts : ∃ parts others, List.Forall₂ C parts others ∧
    heading.text = String.join parts ∧ other.text = String.join others

/-- Pieces of output that are alike. -/
inductive Html.Piece.Like (L : Likeness) : Html.Piece → Html.Piece → Prop where
  | openTag {element other : Element} :
      element.Like L L.Shown other → Piece.Like L (.openTag element) (.openTag other)
  | closeTag (tag : String) : Piece.Like L (.closeTag tag) (.closeTag tag)
  | whole {element other : Element} :
      element.Like L L.Shown other → Piece.Like L (.whole element) (.whole other)
  | text {content other : String} :
      L.text content other → Piece.Like L (.text content) (.text other)

/-! ## Headings -/

namespace Tree

theorem Like.isHeading {tree other : Tree} (hlike : tree.Like L C other) :
    tree.isHeading = other.isHeading := by
  rw [Tree.isHeading, Tree.isHeading, hlike.kind]

mutual

theorem Like.trimHeadings {tree other : Tree} (hlike : tree.Like L C other) :
    tree.trimHeadings.Like L C other.trimHeadings := by
  cases tree with
  | node data children =>
      cases hlike with
      | node hdata hchildren =>
          have hinner := forestLike_trimHeadings hchildren
          rw [Tree.trimHeadings, Tree.trimHeadings, ← hdata.kind]
          split
          · exact .node hdata hinner.trimEdges
          · exact .node hdata hinner

theorem forestLike_trimHeadings {forest other : Forest} (hlike : Forest.Like L C forest other) :
    Forest.Like L C (forestTrimHeadings forest) (forestTrimHeadings other) := by
  cases forest with
  | nil =>
      cases hlike
      exact .nil
  | cons tree rest =>
      cases hlike with
      | cons htree hrest => exact .cons htree.trimHeadings (forestLike_trimHeadings hrest)

end

mutual

/-- Corresponding nodes are alike. -/
theorem Like.preorder {tree other : Tree} (hlike : tree.Like L C other) :
    List.Forall₂ (Node.Like L C) tree.preorder other.preorder := by
  cases tree with
  | node data children =>
      cases hlike with
      | node hdata hchildren => exact .cons hdata (forestLike_preorder hchildren)

theorem forestLike_preorder {forest other : Forest} (hlike : Forest.Like L C forest other) :
    List.Forall₂ (Node.Like L C) forest.preorder other.preorder := by
  cases forest with
  | nil =>
      cases hlike
      exact .nil
  | cons tree rest =>
      cases hlike with
      | cons htree hrest => exact List.rel_append htree.preorder (forestLike_preorder hrest)

end

mutual

/-- Headings draw the same slugs. -/
theorem Like.slugHeadings (hC : ∀ a b, L.text a b → C a b) (hshown : ∀ a b, C a b → L.Shown a b)
    (slugger : Slugger) {tree other : Tree} (hlike : tree.Like L C other) :
    (tree.slugHeadings slugger).1.Like L C (other.slugHeadings slugger).1 ∧
      List.Forall₂ (Heading.Like C) (tree.slugHeadings slugger).2.1
        (other.slugHeadings slugger).2.1 ∧
      (tree.slugHeadings slugger).2.2 = (other.slugHeadings slugger).2.2 := by
  cases tree with
  | node data children =>
      have htexts := hlike.leafTexts (hC _ _)
      cases hlike with
      | @node _ data' _ children' hdata hchildren =>
          rw [Tree.slugHeadings, Tree.slugHeadings, ← hdata.kind]
          cases hlevel : data.kind.headingLevel? with
          | none =>
              obtain ⟨hinner, hheadings, hslugger⟩ := forestLike_slugHeadings hC hshown slugger hchildren
              exact ⟨.node hdata hinner, hheadings, hslugger⟩
          | some level =>
              have hnext : slugger.next (textContent (.node data children)) =
                  slugger.next (textContent (.node data' children')) := by
                rw [Slugger.next, Slugger.next, Tree.textContent, Tree.textContent,
                  L.slug (htexts.imp hshown)]
              dsimp only
              rw [← hnext]
              obtain ⟨hinner, hheadings, hslugger⟩ := forestLike_slugHeadings hC hshown
                (slugger.next (textContent (.node data children))).2 hchildren
              refine ⟨.node ?_ hinner, .cons ⟨rfl, rfl, _, _, htexts, rfl, rfl⟩ hheadings, hslugger⟩
              have hkind : ¬(data.kind = .text ∨ data.kind = .aggregate (.bracket .noteRef)) := by
                rintro (hkind | hkind) <;> rw [hkind] at hlevel <;> cases hlevel
              exact ⟨rfl, hdata.text, .some (.same nofun),
                fun hnamed => absurd hnamed hkind, hdata.place⟩

theorem forestLike_slugHeadings (hC : ∀ a b, L.text a b → C a b)
    (hshown : ∀ a b, C a b → L.Shown a b) (slugger : Slugger) {forest other : Forest}
    (hlike : Forest.Like L C forest other) :
    Forest.Like L C (forestSlugHeadings slugger forest).1
        (forestSlugHeadings slugger other).1 ∧
      List.Forall₂ (Heading.Like C) (forestSlugHeadings slugger forest).2.1
        (forestSlugHeadings slugger other).2.1 ∧
      (forestSlugHeadings slugger forest).2.2 = (forestSlugHeadings slugger other).2.2 := by
  cases forest with
  | nil =>
      cases hlike
      exact ⟨.nil, .nil, rfl⟩
  | cons tree rest =>
      cases hlike with
      | cons htree hrest =>
          obtain ⟨hfirst, hheadings, hslugger⟩ := htree.slugHeadings hC hshown slugger
          rw [forestSlugHeadings, forestSlugHeadings]
          dsimp only
          rw [← hslugger]
          obtain ⟨hothers, hmore, hslugger⟩ :=
            forestLike_slugHeadings hC hshown (tree.slugHeadings slugger).2.2 hrest
          exact ⟨.cons hfirst hothers, List.rel_append hheadings hmore, hslugger⟩

end

/-! ## Lowering -/

theorem like_lowerNode {data other : Node} {children others : Forest}
    (hdata : data.Like L C other) (hchildren : Forest.Like L C children others) :
    (lowerNode data children).Like L C (lowerNode other others) := by
  have htagged : ∀ (tag : String) {inner inner' : Forest}, Forest.Like L C inner inner' →
      (tagged tag data inner).Like L C (tagged tag other inner') :=
    fun tag _ _ hinner => .node (hdata.withElement (by simp) (.same nofun)) hinner
  have hcontainer : ∀ (tag : String) {inner inner' : Forest}, Forest.Like L C inner inner' →
      (container { tag } inner).Like L C (container { tag } inner') :=
    fun tag _ _ hinner =>
      .node ⟨rfl, L.empty, .some (.same nofun), by simp, fun _ => ⟨rfl, rfl⟩⟩ hinner
  unfold lowerNode
  rw [← hdata.kind]
  split
  · exact .node hdata hchildren
  · exact .node hdata hchildren
  · exact htagged "i" hchildren
  · exact htagged "i" (.cons (hcontainer "b" hchildren) .nil)
  · exact htagged "b" hchildren
  · exact htagged "s" hchildren
  · exact .node ⟨rfl, hdata.text, hdata.element, by simp, hdata.place⟩ hchildren
  · exact htagged "blockquote" hchildren
  · exact htagged "p" hchildren
  · exact .node ⟨rfl, hdata.text, .none, by simp, hdata.place⟩ hchildren

mutual

theorem Like.lower {tree other : Tree} (hlike : tree.Like L C other) :
    tree.lower.Like L C other.lower := by
  cases tree with
  | node data children =>
      cases hlike with
      | node hdata hchildren =>
          rw [Tree.lower, Tree.lower]
          exact like_lowerNode hdata (forestLike_lower hchildren)

theorem forestLike_lower {forest other : Forest} (hlike : Forest.Like L C forest other) :
    Forest.Like L C (forestLower forest) (forestLower other) := by
  cases forest with
  | nil =>
      cases hlike
      exact .nil
  | cons tree rest =>
      cases hlike with
      | cons htree hrest => exact .cons htree.lower (forestLike_lower hrest)

end

/-! ## Output -/

open Html

/-- Nodes that are alike are framed alike. -/
theorem like_frame {data other : Node} (hlike : data.Like L L.Shown other) (isLeaf : Bool) :
    List.Forall₂ (Piece.Like L) (frame data isLeaf).1 (frame other isLeaf).1 ∧
      (frame data isLeaf).2.1 = (frame other isLeaf).2.1 ∧
      List.Forall₂ (Piece.Like L) (frame data isLeaf).2.2 (frame other isLeaf).2.2 := by
  have helement := hlike.element
  unfold frame
  rw [← hlike.kind]
  generalize data.element = element, other.element = element' at helement
  cases helement with
  | none =>
      dsimp only
      split
      · exact ⟨.cons (.text hlike.text) .nil, rfl, .nil⟩
      · exact ⟨.nil, rfl, .nil⟩
  | some helement =>
      dsimp only
      split
      · refine ⟨.cons (.openTag helement) .nil, rfl, ?_⟩
        rw [helement.tag]
        exact .cons (.closeTag _) .nil
      · exact ⟨.cons (.whole helement) .nil, rfl, .nil⟩

mutual

theorem Like.pieces {tree other : Tree} (hlike : tree.Like L L.Shown other) :
    List.Forall₂ (Piece.Like L) tree.pieces other.pieces := by
  cases tree with
  | node data children =>
      cases hlike with
      | @node _ _ _ others hdata hchildren =>
          have hempty : children.isEmpty = others.isEmpty := Forest.Like.isEmpty hchildren
          rw [Tree.pieces, Tree.pieces, ← hempty]
          obtain ⟨hbefore, hdescend, hafter⟩ := like_frame hdata children.isEmpty
          dsimp only
          rw [← hdescend]
          split
          · exact List.rel_append (List.rel_append hbefore (forestLike_pieces hchildren)) hafter
          · exact hbefore

theorem forestLike_pieces {forest other : Forest} (hlike : Forest.Like L L.Shown forest other) :
    List.Forall₂ (Piece.Like L) (forestPieces forest) (forestPieces other) := by
  cases forest with
  | nil =>
      cases hlike
      exact .nil
  | cons tree rest =>
      cases hlike with
      | cons htree hrest => exact List.rel_append htree.pieces (forestLike_pieces hrest)

end

end Tree

/-- The warnings about subtrees that were taken out, and about what that emptied. -/
theorem Removal.like_blankNotices {removals others : List Removal}
    (hlike : List.Forall₂ (Removal.Like L C) removals others) :
    Notice.Like L
      (removals.flatMap fun removal =>
        (removal.removed.map Node.emptyNotice).toList ++ removal.notices)
      (others.flatMap fun removal =>
        (removal.removed.map Node.emptyNotice).toList ++ removal.notices) := by
  induction hlike with
  | nil => exact Notice.like_nil
  | @cons removal removal' _ _ hremoval _ ih =>
      have hremoved : Notice.Like L (removal.removed.map Node.emptyNotice).toList
          (removal'.removed.map Node.emptyNotice).toList := by
        intro hplaced
        have hnodes := hremoval.removed
        generalize removal.removed = removed, removal'.removed = removed' at hnodes
        cases hnodes with
        | none => rfl
        | some hnode => simp [Node.emptyNotice, hnode.kind, hnode.offset hplaced]
      exact (hremoved.append hremoval.notices).append ih

namespace Forest.Like

variable {forest other : Forest}

/-- The same headings are taken out. -/
theorem dropBlankHeadings (hlike : Forest.Like L C forest other) :
    Forest.AnswersLike L C forest.dropBlankHeadings other.dropBlankHeadings := by
  have hwears : Rule.Wears fun _ _ => True := ⟨fun _ _ _ => trivial, fun _ _ _ _ => trivial⟩
  have hagrees : Tree.Agrees L C (fun _ _ => True) fun tree => tree.isHeading && tree.isLeaf := by
    intro tree other _ hlike
    exact congrArg₂ _ hlike.isHeading hlike.isLeaf
  obtain ⟨hkept, hremovals⟩ := (Tree.forestLike_trimHeadings hlike).removeWhere hwears hagrees
    (fun _ => Tree.goesWhenEmpty_of_blank) (Tree.forestObeys_of_subtrees fun _ _ => trivial)
  exact ⟨hkept, Removal.like_blankNotices hremovals⟩

theorem ids (hlike : Forest.Like L C forest other) : forest.ids = other.ids := by
  have hnodes := Tree.forestLike_preorder hlike
  unfold Forest.ids
  generalize forest.preorder = nodes, other.preorder = others at hnodes
  induction hnodes with
  | nil => rfl
  | @cons data data' nodes others hdata _ ih =>
      have hid : data.element.bind (·.attribute? "id") = data'.element.bind (·.attribute? "id") := by
        have helement := hdata.element
        generalize data.element = element, data'.element = element' at helement
        cases helement with
        | none => rfl
        | some helement => exact helement.attribute?_id
      rw [List.filterMap_cons, List.filterMap_cons, hid, ih]

/-- Pages that are alike get the same ids for their headings. -/
theorem slugHeadings (hC : ∀ a b, L.text a b → C a b) (hshown : ∀ a b, C a b → L.Shown a b)
    (hlike : Forest.Like L C forest other) :
    Forest.Like L C forest.slugHeadings.1 other.slugHeadings.1 ∧
      List.Forall₂ (Heading.Like C) forest.slugHeadings.2 other.slugHeadings.2 := by
  have hslugger : forest.reservingSlugger = other.reservingSlugger := by
    rw [Forest.reservingSlugger, Forest.reservingSlugger, hlike.ids]
  unfold Forest.slugHeadings
  rw [← hslugger]
  obtain ⟨hslugged, hheadings, -⟩ := Tree.forestLike_slugHeadings hC hshown forest.reservingSlugger hlike
  exact ⟨hslugged, hheadings⟩

end Forest.Like

end PageMarkup
