import PageMarkup.Proofs.Page.Ready

/-! # The outline of a page

Headings get their ids and their entries in the outline in one pass, before they are lowered.
Neither giving ids nor lowering changes the text below a node, and lowering makes headings of
nothing but headings. So the outline describes the headings of the page that is written.
-/

namespace PageMarkup

open Node Forest Html

/-- Tags of headings below the title. -/
def Html.outlineTags : List String := ["h2", "h3", "h4", "h5", "h6"]

/-- Whether the tree is written as a heading below the title. -/
def Tree.showsHeading (tree : Tree) : Bool :=
  tree.data.element.any fun element => outlineTags.contains element.tag

/-- An entry of the outline says what the tree shows: its level, its id and its text. -/
structure Heading.Describes (heading : Heading) (tree : Tree) : Prop where
  tag : tree.tag? = some ("h" ++ toString heading.depth)
  slug : tree.data.element.bind (·.attribute? "id") = some heading.slug
  text : heading.text = tree.textContent

/-- A node of a page whose headings have their ids: besides what lowering needs, the text is
held by leaves, and headings and no other nodes have the tag of a heading. -/
structure Node.Outlined (data : Node) (kinds : List Kind) : Prop where
  slugged : Slugged data kinds
  mute : data.HoldsNoText ["h1"]
  bare : data.element.isSome → data.kind = .container ∨ data.kind = .ready ∨
    data.kind.headingLevel?.isSome
  headed : (data.element.any fun element => outlineTags.contains element.tag) =
    data.kind.headingLevel?.isSome

/-- Only headings and what is written as it is have an element. -/
theorem Node.Outlined.element_eq_none {data : Node} {kinds : List Kind}
    (hdata : Outlined data kinds) (hcontainer : data.kind ≠ .container)
    (hready : data.kind ≠ .ready) (hlevel : data.kind.headingLevel? = none) :
    data.element = none := by
  refine Option.not_isSome_iff_eq_none.mp fun hsome => ?_
  rcases hdata.bare hsome with hkind | hkind | hheading
  · exact hcontainer hkind
  · exact hready hkind
  · rw [hlevel] at hheading
    cases hheading

theorem Forest.Obeys.outlined {body : Forest} (hsound : body.Obeys (Sound embeddedKinds))
    (hmute : body.Obeys (Mute headingTags)) : body.slugHeadings.1.Obeys Outlined := by
  refine Tree.forestObeys_slugHeadings (fun data kinds level slug hdata hlevel => ?_)
    (fun data kinds hdata hlevel => ?_) _ (Tree.forestObeys_and hsound hmute)
  · refine ⟨hdata.1.slugged_heading hlevel slug, HoldsNoText.slugged hdata.2 hlevel slug,
      fun _ => .inr (.inr (by rw [hlevel]; rfl)), ?_⟩
    rw [hlevel]
    cases level <;> rfl
  · refine ⟨hdata.1.slugged hlevel, hdata.2.of_subset (by decide),
      fun hsome => (hdata.1.bare hsome).imp_right .inl, ?_⟩
    cases helement : data.element with
    | none => rw [hlevel]; rfl
    | some element =>
        have htag := hdata.2.untagged element helement
        simp only [headingTags, List.mem_cons, not_or] at htag
        simp [hlevel, outlineTags, htag]

namespace Tree

/-! ## Texts -/

/-- The texts of a tree are those of its root alone or those of its children. -/
theorem leafTexts_congr {data other : Node} {children others : Forest}
    (hempty : children = [] ↔ others = []) (hliteral : children = [] → data.literal = other.literal)
    (htexts : forestLeafTexts children = forestLeafTexts others) :
    (node data children).leafTexts = (node other others).leafTexts := by
  cases children with
  | nil =>
      obtain rfl := hempty.mp rfl
      rw [leafTexts, leafTexts, hliteral rfl]
  | cons child rest =>
      cases others with
      | nil => exact absurd (hempty.mpr rfl) (List.cons_ne_nil _ _)
      | cons other others => exact htexts

theorem forestSlugHeadings_eq_nil_iff {slugger : Slugger} {forest : Forest} :
    (forestSlugHeadings slugger forest).1 = [] ↔ forest = [] := by
  cases forest <;> simp [forestSlugHeadings]

mutual

theorem leafTexts_slugHeadings (slugger : Slugger) {tree : Tree}
    (htree : tree.Obeys (Mute headingTags)) :
    (tree.slugHeadings slugger).1.leafTexts = tree.leafTexts := by
  obtain ⟨data, children⟩ := tree
  rw [slugHeadings]
  dsimp only
  split
  next level hlevel =>
    have hkind : data.kind.canHaveChildren = true := by
      rw [Kind.eq_heading_of_headingLevel? hlevel]
      rfl
    refine leafTexts_congr forestSlugHeadings_eq_nil_iff (fun _ => ?_)
      (forestLeafTexts_slugHeadings _ htree.children)
    exact (htree.data.literal_eq hkind).symm
  next =>
    exact leafTexts_congr forestSlugHeadings_eq_nil_iff (fun _ => rfl)
      (forestLeafTexts_slugHeadings _ htree.children)

/-- Giving ids to headings leaves all texts as they are. -/
theorem forestLeafTexts_slugHeadings (slugger : Slugger) {forest : Forest}
    (hforest : forest.Obeys (Mute headingTags)) :
    forestLeafTexts (forestSlugHeadings slugger forest).1 = forestLeafTexts forest := by
  cases forest with
  | nil => rfl
  | cons tree rest =>
      obtain ⟨htree, hrest⟩ := obeys_cons.mp hforest
      simp only [forestSlugHeadings, forestLeafTexts, leafTexts_slugHeadings _ htree,
        forestLeafTexts_slugHeadings _ hrest]

end

theorem leafTexts_lowerNode {data : Node} {kinds : List Kind} (hdata : Outlined data kinds)
    {children lowered : Forest} (hempty : lowered = [] ↔ children = [])
    (htexts : forestLeafTexts lowered = forestLeafTexts children) :
    (lowerNode data lowered).leafTexts = (node data children).leafTexts := by
  have hlowers := lowers_lowerNode data lowered
  generalize lowerNode data lowered = tree at hlowers ⊢
  cases hlowers with
  | done => exact leafTexts_congr hempty (fun _ => rfl) htexts
  | heading => exact leafTexts_congr hempty (fun _ => rfl) htexts
  | tagged htag =>
      refine leafTexts_congr hempty (fun _ => ?_) htexts
      exact (hdata.mute.literal_eq htag.canHaveChildren).symm
  | emBold hkind =>
      rw [tagged, leafTexts, forestLeafTexts, forestLeafTexts, List.append_nil]
      refine leafTexts_congr hempty (fun _ => ?_) htexts
      exact (hdata.mute.literal_eq (Kind.TakesTag.of_emBold hkind).canHaveChildren).symm
  | text htext =>
      refine leafTexts_congr hempty (fun _ => ?_) htexts
      rw [literal, literal, hdata.element_eq_none htext.container htext.ready htext.heading]

theorem forestLower_eq_nil_iff {forest : Forest} : forestLower forest = [] ↔ forest = [] := by
  cases forest <;> simp [forestLower]

mutual

theorem leafTexts_lower {tree : Tree} (htree : tree.Obeys Outlined) :
    tree.lower.leafTexts = tree.leafTexts := by
  obtain ⟨data, children⟩ := tree
  rw [lower]
  exact leafTexts_lowerNode htree.data forestLower_eq_nil_iff (forestLeafTexts_lower htree.children)

/-- Lowering leaves all texts as they are. -/
theorem forestLeafTexts_lower {forest : Forest} (hforest : forest.Obeys Outlined) :
    forestLeafTexts (forestLower forest) = forestLeafTexts forest := by
  cases forest with
  | nil => rw [forestLower]
  | cons tree rest =>
      obtain ⟨htree, hrest⟩ := obeys_cons.mp hforest
      simp only [forestLower, forestLeafTexts, leafTexts_lower htree, forestLeafTexts_lower hrest]

end

/-! ## Headings -/

mutual

/-- The headings of a tree are listed in preorder. -/
theorem describes_slugHeadings (slugger : Slugger) {tree : Tree}
    (htree : tree.Obeys (Mute headingTags)) :
    List.Forall₂ Heading.Describes (tree.slugHeadings slugger).2.1
      (matching isHeading [(tree.slugHeadings slugger).1]) := by
  have htexts := leafTexts_slugHeadings slugger htree
  obtain ⟨data, children⟩ := tree
  rw [slugHeadings] at htexts ⊢
  dsimp only at htexts ⊢
  split at htexts
  next level hlevel =>
    dsimp only
    rw [matching_cons, matching_nil, List.append_nil,
      if_pos (by rw [isHeading, kind_node, hlevel]; rfl)]
    refine .cons ⟨rfl, rfl, congrArg String.join htexts.symm⟩ ?_
    exact forestDescribes_slugHeadings _ htree.children
  next hlevel =>
    dsimp only
    rw [matching_cons, matching_nil, List.append_nil,
      if_neg (by rw [isHeading, kind_node, hlevel]; nofun)]
    exact forestDescribes_slugHeadings _ htree.children

theorem forestDescribes_slugHeadings (slugger : Slugger) {forest : Forest}
    (hforest : forest.Obeys (Mute headingTags)) :
    List.Forall₂ Heading.Describes (forestSlugHeadings slugger forest).2.1
      (matching isHeading (forestSlugHeadings slugger forest).1) := by
  cases forest with
  | nil => simp [forestSlugHeadings]
  | cons tree rest =>
      obtain ⟨htree, hrest⟩ := obeys_cons.mp hforest
      simp only [forestSlugHeadings]
      rw [matching_singleton_append]
      exact List.rel_append (describes_slugHeadings _ htree) (forestDescribes_slugHeadings _ hrest)

end

/-- A lowered node is written as a heading if it was one, and nothing else is new below it. -/
theorem showsHeading_lowerNode {data : Node} {kinds : List Kind} (hdata : Outlined data kinds)
    (lowered : Forest) :
    (lowerNode data lowered).showsHeading = data.kind.headingLevel?.isSome ∧
      matching showsHeading (lowerNode data lowered).children = matching showsHeading lowered := by
  have hheaded := hdata.headed
  have hother : ∀ tag ∈ loweredTags, outlineTags.contains tag = false := by decide
  have hlowers := lowers_lowerNode data lowered
  generalize lowerNode data lowered = tree at hlowers ⊢
  cases hlowers with
  | done => exact ⟨hheaded, rfl⟩
  | heading => exact ⟨hheaded, rfl⟩
  | tagged htag =>
      rw [htag.headingLevel?_eq_none]
      exact ⟨hother _ htag.mem_loweredTags, rfl⟩
  | emBold hkind =>
      rw [(Kind.TakesTag.of_emBold hkind).headingLevel?_eq_none]
      refine ⟨rfl, ?_⟩
      rw [tagged, children_node, container, matching_cons, matching_nil, List.append_nil]
      rfl
  | text htext =>
      rw [htext.heading]
      exact ⟨rfl, rfl⟩

mutual

theorem matching_lower {tree : Tree} (htree : tree.Obeys Outlined) :
    matching showsHeading [tree.lower] = (matching isHeading [tree]).map lower := by
  obtain ⟨data, children⟩ := tree
  obtain ⟨hdata, hchildren⟩ := obeys_node.mp htree
  obtain ⟨hroot, hbelow⟩ := showsHeading_lowerNode hdata (forestLower children)
  rw [lower, matching_cons, hroot, hbelow, matching_forestLower hchildren, matching_cons,
    matching_nil, matching_nil, List.append_nil, List.append_nil, List.map_append, children_node,
    isHeading, kind_node]
  split <;> simp [lower]

/-- Lowering makes headings of headings, and of nothing else. -/
theorem matching_forestLower {forest : Forest} (hforest : forest.Obeys Outlined) :
    matching showsHeading (forestLower forest) = (matching isHeading forest).map lower := by
  cases forest with
  | nil => simp [forestLower]
  | cons tree rest =>
      obtain ⟨htree, hrest⟩ := obeys_cons.mp hforest
      rw [forestLower, matching_singleton_append, matching_lower htree, matching_forestLower hrest,
        ← List.map_append, ← matching_singleton_append]

end

end Tree

/-! ## Pages -/

/-- A heading is described in the same way before and after it is lowered. -/
theorem Heading.Describes.lower {heading : Heading} {tree : Tree} (htree : tree.Obeys Outlined)
    (hheading : tree.isHeading = true) (hdescribes : heading.Describes tree) :
    heading.Describes tree.lower := by
  have htexts := Tree.leafTexts_lower htree
  obtain ⟨level, hlevel⟩ := Option.isSome_iff_exists.mp hheading
  have hkind := Kind.eq_heading_of_headingLevel? hlevel
  obtain ⟨data, children⟩ := tree
  have hlower : (Tree.node data children).lower =
      .node { data with kind := .container } (Tree.forestLower children) := by
    rw [Tree.lower, Tree.lowerNode, show data.kind = _ from hkind]
  refine ⟨?_, ?_, hdescribes.text.trans (congrArg String.join htexts.symm)⟩
  · rw [hlower]
    exact hdescribes.tag
  · rw [hlower]
    exact hdescribes.slug

/-- The outline of a page that is lowered describes its headings. -/
theorem Forest.describes_lower {body : Forest} (hsound : body.Obeys (Sound embeddedKinds))
    (hmute : body.Obeys (Mute headingTags)) :
    List.Forall₂ Heading.Describes body.slugHeadings.2
      (body.slugHeadings.1.lower.matching Tree.showsHeading) := by
  have houtlined := hsound.outlined hmute
  have hslugged : List.Forall₂ Heading.Describes body.slugHeadings.2
      (body.slugHeadings.1.matching Tree.isHeading) :=
    Tree.forestDescribes_slugHeadings body.reservingSlugger hmute
  have hheadings : ∀ tree ∈ body.slugHeadings.1.matching Tree.isHeading,
      tree.Obeys Outlined ∧ tree.isHeading = true := by
    intro tree hmem
    obtain ⟨hbelow, hheading⟩ := mem_matching.mp hmem
    exact ⟨Tree.forestObeys_of_mem_subtrees houtlined hbelow, hheading⟩
  rw [lower, Tree.matching_forestLower houtlined, List.forall₂_map_right_iff]
  refine ((List.forall₂_and_left _ _).mpr ⟨hheadings, hslugged.flip⟩).flip.imp ?_
  rintro heading tree ⟨⟨htree, hheading⟩, hdescribes⟩
  exact Heading.Describes.lower htree hheading hdescribes

/-- The heading of the notes section is described by its entry. -/
theorem Note.describes_sectionTitle (slugger : Slugger) :
    ∃ slug, (sectionTitle.slugHeadings slugger).2.1 = [⟨2, slug, "Notes"⟩] ∧
      Heading.Describes ⟨2, slug, "Notes"⟩ (sectionTitle.slugHeadings slugger).1.lower := by
  have htext : sectionTitle.textContent = "Notes" := by decide +kernel
  have hslugged : sectionTitle.slugHeadings slugger =
      (.node
          { sectionTitle.data with
            element := some { tag := "h2", attributes := [("id", (slugger.next "Notes").1)] } }
          sectionTitle.children,
        [⟨2, (slugger.next "Notes").1, "Notes"⟩], (slugger.next "Notes").2) := by
    rw [sectionTitle] at htext ⊢
    simp only [Tree.slugHeadings, htext]
    rfl
  rw [hslugged]
  have htag : "h2" = "h" ++ toString 2 := by decide
  exact ⟨(slugger.next "Notes").1, rfl, congrArg some htag, rfl, htext.symm⟩

/-- The outline of a page. -/
structure Document.Outline (document : Document) : Prop where
  /-- The entries describe the headings of the page below the title, in document order. -/
  describes : List.Forall₂ Heading.Describes document.headings
    (document.tree.subtrees.filter Tree.showsHeading)
  /-- If there are notes, the last entry describes the heading before them. -/
  notes : ∀ blocks entries, document.body = blocks ++ [.container Note.listElement entries] →
    ∃ front title others slug, blocks = front ++ [title] ∧
      document.headings = others ++ [⟨2, slug, "Notes"⟩] ∧
      Heading.Describes ⟨2, slug, "Notes"⟩ title

/-- On a finished page, the last entry describes the heading before the list of notes. -/
theorem Forest.Paged.describes_notes {kept : Forest} (hpaged : Paged kept)
    (hkinds : .aggregate (.bracket .embeddedFile) ∉ kept.kinds) {blocks entries : Forest}
    (hbody : kept.slugHeadings.1.lower = blocks ++ [Tree.container Note.listElement entries]) :
    ∃ front title others slug, blocks = front ++ [title] ∧
      kept.slugHeadings.2 = others ++ [⟨2, slug, "Notes"⟩] ∧
      Heading.Describes ⟨2, slug, "Notes"⟩ title := by
  rw [slugHeadings] at hbody ⊢
  dsimp only at hbody ⊢
  generalize kept.reservingSlugger = slugger at hbody ⊢
  cases hpaged with
  | plain _ hblocks =>
      -- The list of notes is no block.
      have htags := tag?_of_mem_lower hblocks hkinds slugger
      obtain ⟨tag, hmem, htag⟩ := htags (.container Note.listElement entries) (by
        rw [show Tree.forestLower _ = _ from hbody]
        exact List.mem_append_right _ (List.mem_singleton_self _))
      cases htag
      exact absurd hmem (by decide)
  | noted front notes hfront =>
      rw [Note.sectionOf_eq, ← List.singleton_append, ← List.append_assoc,
        Tree.forestSlugHeadings_append, Tree.forestSlugHeadings_of_lacks _ (lacks_notesList notes),
        Tree.forestSlugHeadings_append] at hbody ⊢
      obtain ⟨slug, hentry, hdescribes⟩ :=
        Note.describes_sectionTitle (Tree.forestSlugHeadings slugger front).2.2
      rw [lower, Tree.forestLower_append, Tree.forestLower_append] at hbody
      have hblocks := List.append_inj_left' hbody rfl
      refine ⟨_, _, (Tree.forestSlugHeadings slugger front).2.1, slug, hblocks.symm, ?_, hdescribes⟩
      simp [Tree.forestSlugHeadings, hentry]

namespace Source

/-- The outline of every page that compiles describes the headings that it shows. -/
theorem compile_outline {source : Source} {registries : Registries} {document : Document}
    (hcompile : (source.compile registries).2 = .ok document) : document.Outline := by
  obtain ⟨kept, hkept, hmute, hpaged, hbody, hheadings, centered, directive, htitle⟩ :=
    compile_unlowered hcompile
  have hdescribes := describes_lower hkept hmute
  rw [hbody, hheadings] at hdescribes
  refine ⟨?_, fun blocks entries hsplit => ?_⟩
  · have hshown : document.tree.subtrees.filter Tree.showsHeading =
        document.body.matching Tree.showsHeading := by
      rw [Document.tree, Tree.subtrees_node, subtrees_cons, htitle]
      rfl
    rw [hshown]
    exact hdescribes
  · rw [← hheadings]
    exact hpaged.describes_notes hkept.not_mem_kinds (hbody.trans hsplit)

/-- The outline of a page with a heading in an emphasis and notes ends with the notes. -/
theorem compile_outline_nested :
    ∃ document, (Document.readyExample.compile Registries.empty).2 = .ok document ∧
      document.headings.map Heading.text = ["h", "a[n]", "Notes"] ∧ document.Outline := by
  have htexts : (Document.readyExample.compile Registries.empty).2.toOption.map
      (fun document => document.headings.map Heading.text) = some ["h", "a[n]", "Notes"] := by
    decide +kernel
  cases hcompile : (Document.readyExample.compile Registries.empty).2 with
  | error fault =>
      rw [hcompile] at htexts
      cases htexts
  | ok document =>
      rw [hcompile] at htexts
      exact ⟨document, rfl, Option.some.inj htexts, compile_outline hcompile⟩

end Source

end PageMarkup
