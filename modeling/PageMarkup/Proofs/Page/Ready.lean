import PageMarkup.Proofs.Page.Mute

/-! # Pages ready for output

A compiled page has nothing left but containers and leaves that are ready. At the top
stand the title, blocks one after the other and, if the page has notes, the section with
them. Each pass after the grouping into paragraphs takes blocks away or puts others in
their place. Only the pass for notes adds to the page, and what it adds no pass changes.
-/

namespace PageMarkup

open Node Forest Html

/-- Tag of the element at the root of the tree. -/
def Tree.tag? (tree : Tree) : Option String := tree.data.element.map (·.tag)

namespace Note

/-- The element around the list of notes. -/
def listElement : Element := { tag := "div", attributes := [("id", "bottom-refs")] }

/-- The heading of the notes section. -/
def sectionTitle : Tree :=
  .node { kind := .aggregate (.style (.heading .two)) } [.leaf { kind := .text, text := "Notes" }]

theorem sectionOf_eq (notes : List Note) :
    sectionOf notes = [sectionTitle, .container listElement (notes.map entry)] := rfl

end Note

namespace Node

/-- The tags that blocks are written with. -/
def blockTags : List String := ["p", "h2", "h3", "h4", "h5", "h6", "blockquote", "figure"]

/-- The tag that a block is written with, told from its root. -/
def blockTag? (data : Node) : Option String :=
  match data.kind with
  | .paragraph => some "p"
  | .aggregate (.line .blockquote) => some "blockquote"
  | .aggregate (.style (.heading level)) => some ("h" ++ toString level.number)
  | .aggregate (.bracket .embeddedFile) => some "figure"
  | .container => data.element.map (·.tag)
  | _ => none

/-- Whether the node is the root of a block. -/
def IsBlock (data : Node) : Prop := ∃ tag ∈ blockTags, data.blockTag? = some tag

theorem isBlock_of_isBlock {data : Node} (hkind : data.kind.isBlock = true) : data.IsBlock := by
  rw [IsBlock, blockTag?]
  cases hdata : data.kind with
  | aggregate aggregate =>
      rw [hdata] at hkind
      cases aggregate with
      | style style =>
          cases style with
          | heading level => cases level <;> exact ⟨_, by decide, rfl⟩
          | _ => cases hkind
      | bracket bracket =>
          cases bracket with
          | embeddedFile => exact ⟨_, by decide, rfl⟩
          | _ => cases hkind
      | line line =>
          cases line with
          | blockquote => exact ⟨_, by decide, rfl⟩
          | directive => cases hkind
  | _ => rw [hdata] at hkind; cases hkind

end Node

namespace Forest

/-- The roots of the trees of a forest. -/
def roots (forest : Forest) : List Node := forest.map Tree.data

/-- A page from its top: blocks, and after them the notes section if there is one. -/
inductive Paged : Forest → Prop where
  | plain (blocks : Forest) : (∀ data ∈ blocks.roots, data.IsBlock) → Paged blocks
  | noted (blocks : Forest) (notes : List Note) :
      (∀ data ∈ blocks.roots, data.IsBlock) → Paged (blocks ++ Note.sectionOf notes)

/-! ## Paragraphs -/

theorem isBlock_paragraphOf (run : Forest) : ∀ tree ∈ paragraphOf run, tree.data.IsBlock := by
  intro tree hmem
  unfold paragraphOf at hmem
  split at hmem
  next => cases hmem
  next =>
    obtain rfl := List.mem_singleton.mp hmem
    exact ⟨"p", by decide, rfl⟩

theorem isBlock_paragraphsFrom (run forest : Forest) :
    ∀ tree ∈ paragraphsFrom run forest, tree.data.IsBlock := by
  induction forest generalizing run with
  | nil => exact isBlock_paragraphOf run.reverse
  | cons tree rest ih =>
      rw [paragraphsFrom]
      split
      next => exact List.forall_mem_append.mpr ⟨isBlock_paragraphOf _, ih []⟩
      next =>
        split
        next hblock =>
          exact List.forall_mem_append.mpr ⟨isBlock_paragraphOf _,
            List.forall_mem_cons.mpr ⟨isBlock_of_isBlock hblock, ih []⟩⟩
        next => exact ih _

/-- An arranged page has nothing but blocks at the top. -/
theorem isBlock_arranged (body : Forest) : ∀ data ∈ body.arranged.roots, data.IsBlock := by
  intro data hmem
  obtain ⟨tree, htree, rfl⟩ := List.mem_map.mp hmem
  exact isBlock_paragraphsFrom [] _ tree htree

/-! ## Taking trees out -/

variable {p : Tree → Bool}

theorem RemovesFirst.roots_sublist {target : Tree} {forest : Forest} {removal : Removal}
    (hremoves : RemovesFirst p target forest removal) :
    removal.rest.roots.Sublist forest.roots := by
  cases hremoves with
  | here before after => simp [roots]
  | deeper before after => simp [roots]
  | settled before after => simp [roots]
  | emptied before after => simp [roots]

theorem roots_removeWhere (p : Tree → Bool) (forest : Forest) :
    (removeWhere p forest).1.roots.Sublist forest.roots :=
  removeWhere_invariant (P := fun rest => rest.roots.Sublist forest.roots)
    (fun hremoves hrest => hremoves.roots_sublist.trans hrest) (List.Sublist.refl _)

/-! ## Notes -/

theorem roots_dropUndefined (names : List String) (forest : Forest) :
    (Note.dropUndefined names forest).1.roots.Sublist forest.roots := by
  induction names generalizing forest with
  | nil => exact List.Sublist.refl _
  | cons name names ih => exact (ih _).trans (roots_removeWhere _ forest)

theorem not_isBlock_of_isNoteRef {tree : Tree} (href : tree.isNoteRef = true) :
    ¬ tree.data.IsBlock := by
  rintro ⟨tag, -, htag⟩
  rw [blockTag?, show tree.data.kind = _ from beq_iff_eq.mp href] at htag
  cases htag

/-- There are no references at the top, so rewriting them leaves the roots alone. -/
theorem roots_forestRewriteNoteRefs (notes : List Note) (seen : List String) {forest : Forest}
    (hforest : ∀ data ∈ forest.roots, data.IsBlock) :
    (Tree.forestRewriteNoteRefs notes seen forest).1.roots = forest.roots := by
  induction forest generalizing seen with
  | nil => rfl
  | cons tree rest ih =>
      obtain ⟨htree, hrest⟩ := List.forall_mem_cons.mp hforest
      have hhead : (tree.rewriteNoteRefs notes seen).1.data = tree.data := by
        obtain ⟨data, children⟩ := tree
        rw [Tree.rewriteNoteRefs]
        dsimp only
        split
        next href => exact absurd htree (not_isBlock_of_isNoteRef href)
        next => rfl
      simp only [Tree.forestRewriteNoteRefs, roots, List.map_cons, hhead]
      exact congrArg (tree.data :: ·) (ih _ hrest)

theorem paged_resolve (definitions : List Directive) {body : Forest}
    (hbody : ∀ data ∈ body.roots, data.IsBlock) : Paged (Note.resolve definitions body).1 := by
  have hkept : ∀ data ∈ (Note.withoutUndefined definitions body).1.roots, data.IsBlock :=
    fun data hmem => hbody data ((roots_dropUndefined _ body).subset hmem)
  rw [Note.resolve_eq]
  dsimp only
  split
  next => exact .plain _ hkept
  next =>
    refine .noted _ _ ?_
    rw [roots_forestRewriteNoteRefs _ _ hkept]
    exact hkept

/-! ## Links and embeds -/

section Expanding

variable {f : Tree → Option (Forest × List Notice)}

theorem isBlock_forestExpand
    (hf : ∀ tree answer, f tree = some answer → tree.data.IsBlock →
      ∀ data ∈ answer.1.roots, data.IsBlock) {forest : Forest}
    (hforest : ∀ data ∈ forest.roots, data.IsBlock) :
    ∀ data ∈ roots (Tree.forestExpand f forest).1, data.IsBlock := by
  induction forest with
  | nil => exact hforest
  | cons tree rest ih =>
      obtain ⟨htree, hrest⟩ := List.forall_mem_cons.mp hforest
      simp only [Tree.forestExpand, roots, List.map_append]
      refine List.forall_mem_append.mpr ⟨?_, ih hrest⟩
      obtain ⟨data, children⟩ := tree
      rw [Tree.expand]
      split
      next answer hanswer => exact hf _ answer hanswer htree
      next => exact List.forall_mem_singleton.mpr htree

/-- Replacing blocks by blocks leaves the notes section alone if nothing in it is replaced. -/
theorem paged_forestExpand
    (hf : ∀ tree answer, f tree = some answer → tree.data.IsBlock →
      ∀ data ∈ answer.1.roots, data.IsBlock)
    (hnotes : ∀ notes, ∀ tree ∈ (Note.sectionOf notes).subtrees, f tree = none) {forest : Forest}
    (hforest : Paged forest) : Paged (Tree.forestExpand f forest).1 := by
  cases hforest with
  | plain _ hblocks => exact .plain _ (isBlock_forestExpand hf hblocks)
  | noted blocks notes hblocks =>
      rw [Tree.forestExpand_append, Tree.forestExpand_of_unanswered (hnotes notes)]
      exact .noted _ notes (isBlock_forestExpand hf hblocks)

end Expanding

/-- No kind that has been resolved is left in the notes section. -/
theorem not_mem_embeddedKinds {notes : List Note} {tree : Tree}
    (hmem : tree ∈ (Note.sectionOf notes).subtrees) : tree.kind ∉ embeddedKinds :=
  (Tree.forestObeys_of_mem_subtrees (Note.sound_sectionOf notes) hmem).data.present

theorem paged_resolveExternals {body : Forest} (hbody : Paged body) :
    Paged (Link.resolveExternals body).1 := by
  refine paged_forestExpand (fun tree answer hsome hblock => ?_) (fun notes tree hmem => ?_) hbody
  · obtain ⟨tag, -, htag⟩ := hblock
    have hkind := (Link.answers_of_resolveExternal? hsome).1
    rw [blockTag?, show tree.data.kind = _ from hkind] at htag
    cases htag
  · refine Link.resolveExternal?_eq_none_iff.mpr fun hkind => not_mem_embeddedKinds hmem ?_
    rw [hkind]
    decide

theorem paged_resolveAll (registries : Registries) {body : Forest} (hbody : Paged body) :
    Paged (Embed.resolveAll registries body).1 := by
  refine paged_forestExpand (fun tree answer hsome _ => ?_) (fun notes tree hmem => ?_) hbody
  · cases (Embed.answers_of_resolve? hsome).2 with
    | removed => exact List.forall_mem_nil _
    | figure => exact List.forall_mem_singleton.mpr ⟨"figure", by decide, rfl⟩
  · refine Embed.resolve?_eq_none_iff.mpr fun hkind => not_mem_embeddedKinds hmem ?_
    rw [hkind]
    decide

/-! ## Blank headings -/

/-- The list of notes holds no heading. -/
theorem lacks_notesList (notes : List Note) :
    Lacks Tree.isHeading [.container Note.listElement (notes.map Note.entry)] := by
  have hentries : Lacks Tree.isHeading (notes.map Note.entry) := by
    intro tree hmem
    obtain ⟨entry, hentry, hbelow⟩ := mem_subtrees.mp hmem
    obtain ⟨note, -, rfl⟩ := List.mem_map.mp hentry
    have hentry : note.entry.Obeys
        (Sound (Kind.headingLevels.map fun level => .aggregate (.style (.heading level)))) :=
      (Note.obeys_entryNode note).mono fun _ _ => Note.sound_entryNode (by decide) (by decide)
    have hkind := (hentry.of_mem_subtrees hbelow).data.present
    rw [Tree.isHeading, Option.isSome_eq_false_iff, Option.isNone_iff_eq_none]
    by_contra hsome
    obtain ⟨level, hlevel⟩ := Option.ne_none_iff_exists'.mp hsome
    refine hkind ?_
    rw [show tree.data.kind = _ from Kind.eq_heading_of_headingLevel? hlevel]
    cases level <;> decide
  exact lacks_cons.mpr ⟨rfl, hentries, by simp [Lacks]⟩

theorem trimHeadings_sectionTitle : Note.sectionTitle.trimHeadings = Note.sectionTitle := by
  have hblank : Text.isBlankText "Notes" = false := by decide +kernel
  have hstart : Text.trimStart "Notes" = "Notes" := by decide +kernel
  have hend : Text.trimEnd "Notes" = "Notes" := by decide +kernel
  simp [Note.sectionTitle, Tree.trimHeadings, Tree.forestTrimHeadings, Tree.leaf, trimEdges,
    trimLeading, trimTrailing, trimFront, Tree.isTextLeaf, Tree.withText, Tree.data, hblank, hstart,
    hend]

theorem forestTrimHeadings_append (first second : Forest) :
    Tree.forestTrimHeadings (first ++ second) =
      Tree.forestTrimHeadings first ++ Tree.forestTrimHeadings second := by
  induction first with
  | nil => rfl
  | cons tree rest ih => simp [Tree.forestTrimHeadings, ih]

theorem forestTrimHeadings_sectionOf (notes : List Note) :
    Tree.forestTrimHeadings (Note.sectionOf notes) = Note.sectionOf notes := by
  rw [Note.sectionOf_eq, Tree.forestTrimHeadings,
    Tree.forestTrimHeadings_of_lacks (lacks_notesList notes), trimHeadings_sectionTitle]

/-- No heading of the notes section is left with nothing. -/
theorem lacks_blank_sectionOf (notes : List Note) :
    Lacks (fun tree => tree.isHeading && tree.isLeaf) (Note.sectionOf notes) := by
  refine lacks_cons.mpr ⟨rfl, lacks_cons.mpr ⟨rfl, nofun, nofun⟩, fun tree hmem => ?_⟩
  exact Bool.and_eq_false_iff.mpr (.inl (lacks_notesList notes tree hmem))

/-- The heading of the notes section is trimmed and not blank. -/
theorem dropBlankHeadings_append (blocks : Forest) (notes : List Note) :
    (dropBlankHeadings (blocks ++ Note.sectionOf notes)).1 =
      blocks.dropBlankHeadings.1 ++ Note.sectionOf notes := by
  rw [dropBlankHeadings, dropBlankHeadings]
  dsimp only
  rw [forestTrimHeadings_append, forestTrimHeadings_sectionOf,
    removeWhere_append _ (lacks_blank_sectionOf notes)]

theorem roots_dropBlankHeadings (forest : Forest) :
    forest.dropBlankHeadings.1.roots.Sublist forest.roots := by
  have htrimmed : ∀ forest : Forest, roots (Tree.forestTrimHeadings forest) = forest.roots := by
    intro forest
    induction forest with
    | nil => rfl
    | cons tree rest ih =>
        obtain ⟨data, children⟩ := tree
        exact congrArg (data :: ·) ih
  exact htrimmed forest ▸ roots_removeWhere _ (Tree.forestTrimHeadings forest)

theorem paged_dropBlankHeadings {body : Forest} (hbody : Paged body) :
    Paged body.dropBlankHeadings.1 := by
  cases hbody with
  | plain _ hblocks =>
      exact .plain _ fun data hmem => hblocks data ((roots_dropBlankHeadings body).subset hmem)
  | noted blocks notes hblocks =>
      rw [dropBlankHeadings_append]
      exact .noted _ notes fun data hmem =>
        hblocks data ((roots_dropBlankHeadings blocks).subset hmem)

theorem paged_resolved (registries : Registries) (definitions : List Directive) {body : Forest}
    (hbody : ∀ data ∈ body.roots, data.IsBlock) :
    Paged (body.resolved registries definitions) :=
  paged_dropBlankHeadings (paged_resolveAll registries (paged_resolveExternals
    (paged_resolve definitions hbody)))

end Forest

/-! ## Lowering -/

namespace Tree

/-- A block is lowered to an element of its tag. -/
theorem tag?_lower {tree : Tree} {tag : String} (htag : tree.data.blockTag? = some tag)
    (hkind : tree.kind ≠ .aggregate (.bracket .embeddedFile)) (slugger : Slugger) :
    (tree.slugHeadings slugger).1.lower.tag? = some tag := by
  obtain ⟨data, children⟩ := tree
  rw [slugHeadings]
  dsimp only
  split
  next level hlevel =>
    have hdata := Kind.eq_heading_of_headingLevel? hlevel
    rw [blockTag?, data_node, hdata] at htag
    simpa [lower, lowerNode, hdata, tag?] using htag
  next hlevel =>
    rw [blockTag?, data_node] at htag
    split at htag
    next hdata => simpa [lower, lowerNode, hdata, tag?, tagged] using htag
    next hdata => simpa [lower, lowerNode, hdata, tag?, tagged] using htag
    next level hdata => rw [hdata] at hlevel; cases hlevel
    next hdata => exact absurd hdata hkind
    next hdata => simpa [lower, lowerNode, hdata, tag?] using htag
    next => cases htag

theorem forestSlugHeadings_append (slugger : Slugger) (first second : Forest) :
    forestSlugHeadings slugger (first ++ second) =
      ((forestSlugHeadings slugger first).1 ++
          (forestSlugHeadings (forestSlugHeadings slugger first).2.2 second).1,
        (forestSlugHeadings slugger first).2.1 ++
          (forestSlugHeadings (forestSlugHeadings slugger first).2.2 second).2.1,
        (forestSlugHeadings (forestSlugHeadings slugger first).2.2 second).2.2) := by
  induction first generalizing slugger with
  | nil => simp [forestSlugHeadings]
  | cons tree rest ih => simp [forestSlugHeadings, ih]

end Tree

namespace Forest

theorem tag?_of_mem_lower {blocks : Forest} (hblocks : ∀ data ∈ blocks.roots, data.IsBlock)
    (hkinds : .aggregate (.bracket .embeddedFile) ∉ blocks.kinds) (slugger : Slugger) :
    ∀ tree ∈ Tree.forestLower (Tree.forestSlugHeadings slugger blocks).1,
      ∃ tag ∈ blockTags, tree.tag? = some tag := by
  induction blocks generalizing slugger with
  | nil => nofun
  | cons tree rest ih =>
      obtain ⟨⟨tag, hmem, htag⟩, hrest⟩ := List.forall_mem_cons.mp hblocks
      rw [kinds, List.map_cons, List.mem_cons, not_or] at hkinds
      simp only [Tree.forestSlugHeadings, Tree.forestLower]
      exact List.forall_mem_cons.mpr
        ⟨⟨tag, hmem, Tree.tag?_lower htag (Ne.symm hkinds.1) slugger⟩, ih hrest hkinds.2 _⟩

/-- No embed is left once the embeds are resolved. -/
theorem Obeys.not_mem_kinds {kept : Forest} (hkept : kept.Obeys (Sound embeddedKinds)) :
    .aggregate (.bracket .embeddedFile) ∉ kept.kinds := by
  intro hmem
  obtain ⟨tree, htree, hkind⟩ := List.mem_map.mp hmem
  refine (obeys_iff.mp hkept tree htree).data.present ?_
  rw [show tree.data.kind = _ from hkind]
  decide

/-- A finished page is made of blocks, and last the list of notes if there is one. -/
theorem exists_blocks {kept : Forest} (hpaged : Paged kept)
    (hkinds : .aggregate (.bracket .embeddedFile) ∉ kept.kinds) :
    ∃ blocks notes,
      kept.slugHeadings.1.lower = blocks ++ notes ∧
      (∀ tree ∈ blocks, ∃ tag ∈ blockTags, tree.tag? = some tag) ∧
      (notes = [] ∨ ∃ entries, notes = [.container Note.listElement entries]) := by
  rw [slugHeadings]
  dsimp only
  generalize kept.reservingSlugger = slugger
  cases hpaged with
  | plain _ hblocks =>
      exact ⟨_, [], (List.append_nil _).symm, tag?_of_mem_lower hblocks hkinds _, .inl rfl⟩
  | noted blocks notes hblocks =>
      rw [kinds, List.map_append, List.mem_append, not_or] at hkinds
      have hall : ∀ data ∈ roots (blocks ++ [Note.sectionTitle]), data.IsBlock := by
        rw [roots, List.map_append]
        exact List.forall_mem_append.mpr
          ⟨hblocks, List.forall_mem_singleton.mpr ⟨"h2", by decide, rfl⟩⟩
      have hnone : .aggregate (.bracket .embeddedFile) ∉ kinds (blocks ++ [Note.sectionTitle]) := by
        rw [kinds, List.map_append, List.mem_append, not_or]
        exact ⟨hkinds.1, by decide⟩
      rw [Note.sectionOf_eq, ← List.singleton_append, ← List.append_assoc,
        Tree.forestSlugHeadings_append, Tree.forestSlugHeadings_of_lacks _ (lacks_notesList notes),
        lower, Tree.forestLower_append]
      exact ⟨_, _, rfl, tag?_of_mem_lower hall hnone _, .inr ⟨_, rfl⟩⟩

end Forest

/-! ## Pages -/

/-- A tree whose root is a leaf that is ready, or a container whose element has no content of
its own. -/
def Tree.IsReady (tree : Tree) : Prop :=
  tree.kind = .ready ∧ tree.children = [] ∨
    tree.kind = .container ∧
      ∃ element, tree.data.element = some element ∧ element.content = none

/-- A finished node whose text is held by leaves is ready. -/
theorem Forest.isReady_of_finished {body : Forest} (hfinished : body.Obeys Finished)
    (hmute : body.Obeys (Mute ["h1"])) : ∀ tree ∈ body.subtrees, tree.IsReady := by
  intro tree hmem
  have hshape := (Tree.forestObeys_of_mem_subtrees hfinished hmem).data.shape
  have hdata := (Tree.forestObeys_of_mem_subtrees hmute hmem).data
  refine hshape.symm.imp (fun ⟨hkind, hleaf⟩ => ⟨hkind, List.map_eq_nil_iff.mp hleaf⟩) ?_
  rintro ⟨hkind, hsome⟩
  obtain ⟨element, helement⟩ := Option.isSome_iff_exists.mp hsome
  exact ⟨hkind, element, helement, hdata.content (by rw [hkind]; rfl) element helement⟩

/-- Where text is held by leaves there is no title. -/
theorem Forest.untitled_of_mute {body : Forest} (hmute : body.Obeys (Mute ["h1"])) :
    ∀ tree ∈ body.subtrees, tree.tag? ≠ some "h1" := by
  intro tree hmem htag
  obtain ⟨element, helement, htag⟩ := Option.map_eq_some_iff.mp htag
  exact (Tree.forestObeys_of_mem_subtrees hmute hmem).data.untagged element helement (List.mem_singleton.mpr htag)

/-- What a page that compiles is before its headings get ids and it is lowered. -/
theorem Source.compile_unlowered {source : Source} {registries : Registries}
    {document : Document} (hcompile : (source.compile registries).2 = .ok document) :
    ∃ kept : Forest,
      kept.Obeys (Sound embeddedKinds) ∧ kept.Obeys (Mute headingTags) ∧ Paged kept ∧
      kept.slugHeadings.1.lower = document.body ∧ kept.slugHeadings.2 = document.headings ∧
      ∃ centered directive, document.title = .ofDirective centered directive := by
  obtain ⟨forest, hforest, hcheck, haccounts, hpresented⟩ := compile_presents hcompile
  obtain ⟨first, -, -, htitle⟩ := haccounts.title
  obtain ⟨hbody, hheadings⟩ := Prod.mk.inj hpresented
  have hsound := (sound_lifted hforest hcheck).arranged (.sound (by decide))
  have hmute : Forest.Obeys (Mute headingTags) (Directive.body source forest.pruneEmpty.1) :=
    (mute_ofLexemes hforest).mute_lifted
  exact ⟨_, hsound.sound_resolved registries _, hmute.mute_arranged.mute_resolved registries _,
    paged_resolved registries _ (isBlock_arranged _), hbody, hheadings, _, first, htitle⟩

/-- A page that is ready for output. -/
structure Document.Ready (document : Document) : Prop where
  /-- Below the root there are only leaves that are ready, and containers whose element has
  no content of its own. -/
  nodes : ∀ tree ∈ document.tree.children.subtrees, tree.IsReady
  /-- The title stands first, then come blocks and last the list of notes, if any. -/
  blocks : ∃ blocks notes,
    document.tree.children = document.title.heading :: (blocks ++ notes) ∧
    (∀ tree ∈ blocks, ∃ tag ∈ blockTags, tree.tag? = some tag) ∧
    (notes = [] ∨ ∃ entries, notes = [.container Note.listElement entries])
  /-- The title is a leaf and the only heading of the first level. -/
  title : document.title.heading.children = [] ∧ document.title.heading.tag? = some "h1" ∧
    ∀ tree ∈ document.body.subtrees, tree.tag? ≠ some "h1"
  /-- The whole page is written as its title and then its body. -/
  html : document.tree.html = document.titleHtml ++ document.html

/-- The root of a page writes nothing of its own. -/
theorem Document.html_tree (document : Document) :
    document.tree.html = document.titleHtml ++ document.html := by
  simp [tree, Tree.html, Tree.pieces, Html.frame, Tree.forestPieces, titleHtml, html,
    Forest.html, String.join_append]

/-- Every page that compiles is ready for output. -/
theorem Source.compile_ready {source : Source} {registries : Registries} {document : Document}
    (hcompile : (source.compile registries).2 = .ok document) : document.Ready := by
  obtain ⟨kept, hkept, hsilent, hpaged, hbody, -, centered, directive, htitle⟩ :=
    compile_unlowered hcompile
  have hlowered := hsilent.mute_slugHeadings.mute_lower
  have hfinished := isReady_of_finished hkept.slugHeadings.lower hlowered
  have huntitled := untitled_of_mute hlowered
  obtain ⟨blocks, notes, hsplit, hblocks, hnotes⟩ := exists_blocks hpaged hkept.not_mem_kinds
  rw [hbody] at hfinished huntitled
  refine ⟨?_, ⟨blocks, notes, ?_, hblocks, hnotes⟩, ⟨?_, ?_, huntitled⟩, document.html_tree⟩
  · rw [Document.tree, Tree.children_node, Forest.subtrees_cons, htitle]
    exact List.forall_mem_append.mpr ⟨List.forall_mem_singleton.mpr (.inl ⟨rfl, rfl⟩), hfinished⟩
  · rw [← hsplit]
    exact congrArg (document.title.heading :: ·) hbody.symm
  · rw [htitle]
    rfl
  · rw [htitle]
    rfl

/-- A page with a heading in an emphasis, quotes and notes. -/
def Document.readyExample : Source :=
  ⟨#["!", "t", "i", "t", "l", "e", " ", "T", "\n", "*", "=", "=", "h", "=", "=", "*", "\n",
    ">", " ", "q", "\n", ">", " ", "r", "\n", "=", "=", "=", "a", "\x7b", "n", "\x7d", "=", "=", "=",
    "\n", "!", "n", "o", "t", "e", "n", " ", "x"]⟩

theorem Source.compile_ready_nested :
    ∃ document, (Document.readyExample.compile Registries.empty).2 = .ok document ∧
      document.Ready := by
  have hok : (Document.readyExample.compile Registries.empty).2.isOk = true := by decide +kernel
  cases hcompile : (Document.readyExample.compile Registries.empty).2 with
  | error fault =>
      rw [hcompile] at hok
      cases hok
  | ok document => exact ⟨document, rfl, Source.compile_ready hcompile⟩

end PageMarkup
