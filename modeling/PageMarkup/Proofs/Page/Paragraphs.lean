import PageMarkup.Proofs.Page.Promises
import PageMarkup.Proofs.Tree.Origins

/-! # What paragraphs hold

Blocks stand beside paragraphs, and a run of trees between blocks makes a paragraph. That
is decided at the root: a heading or an embed that is written inside a style or a quoted
line is no tree of its own there, and goes into the paragraph with what is around it. Nothing
else can bring a block into a paragraph.
-/

namespace PageMarkup

open Node Forest Html

namespace Node

/-- Whether the node has an element with the tag, or will get one. -/
def HasTag (tag : String) (data : Node) : Prop :=
  data.blockTag? = some tag ∨ data.element.map (·.tag) = some tag

/-- A node whose tag is that of a block is held for its opening marker. -/
def Inside (held : Span → String → Prop) : Rule := fun data _ =>
  ∀ tag ∈ blockTags, data.HasTag tag → ∃ opener, data.opener = some opener ∧ held opener tag

variable {held : Span → String → Prop}

theorem wears_inside : Rule.Wears (Inside held) where
  text _ _ hdata := hdata
  loss hdata _ _ _ := hdata

/-- A node that is no block is inside wherever it may be. -/
theorem inside_of_other {data : Node} {kinds : List Kind}
    (hother : ∀ tag ∈ blockTags, ¬ data.HasTag tag) : Inside held data kinds :=
  fun tag hmem htag => absurd htag (hother tag hmem)

/-- A node with an element has no other tag. -/
theorem not_hasTag_of_element {data : Node} {tag : String} {attributes : List (String × String)}
    {content : Option String} (hkind : data.kind = .container ∨ data.kind = .ready)
    (helement : data.element = some { tag, attributes, content }) {tags : List String}
    (hother : tag ∉ tags) : ∀ other ∈ tags, ¬ data.HasTag other := by
  intro other hmem htag
  have heq : tag = other := by
    rcases hkind with hkind | hkind <;>
      simpa [HasTag, blockTag?, hkind, helement] using htag
  exact hother (heq ▸ hmem)

/-- A leaf of plain text is no block. -/
theorem not_hasTag_of_text {data : Node} (hkind : data.kind = .ready ∨ data.kind = .text)
    (helement : data.element = none) (tag : String) : ¬ data.HasTag tag := by
  rcases hkind with hkind | hkind <;> simp [HasTag, blockTag?, hkind, helement]

end Node

/-- What stands in a paragraph is held if its tag is that of a block. -/
def Forest.ParagraphsHold (held : Span → String → Prop) (forest : Forest) : Prop :=
  ∀ tree ∈ forest.subtrees, tree.data.HasTag "p" → tree.children.Obeys (Inside held)

variable {held : Span → String → Prop}

theorem Tree.obeys_children_of_isTextLeaf {rule : Rule} {tree : Tree}
    (hleaf : tree.isTextLeaf = true) : tree.children.Obeys rule := by
  rw [children_of_isTextLeaf hleaf]
  exact obeys_nil

namespace Forest

/-- There is nothing to say where there are no paragraphs. -/
theorem ParagraphsHold.of_none {forest : Forest}
    (hforest : forest.Obeys fun data _ => ¬ data.HasTag "p") : forest.ParagraphsHold held :=
  fun _ hmem htag => absurd htag (Tree.forestObeys_of_mem_subtrees hforest hmem).data

theorem paragraphsHold_append {first second : Forest} :
    (first ++ second).ParagraphsHold held ↔
      first.ParagraphsHold held ∧ second.ParagraphsHold held := by
  simp [ParagraphsHold, or_imp, forall_and]

/-! ## Taking trees out -/

theorem ParagraphsHold.removeWhere {p : Tree → Bool}
    (hp : ∀ tree, p tree = true → tree.kind.goesWhenEmpty = true) {forest : Forest}
    (hforest : forest.ParagraphsHold held) : (removeWhere p forest).1.ParagraphsHold held := by
  refine removeWhere_invariant (P := ParagraphsHold held) ?_ hforest
  intro target forest removal hremoves hforest tree hmem htag
  rcases hremoves.origin hmem with hmem | hleaf | ⟨children, inner, hmem, hinner, hfrom⟩
  · exact hforest tree hmem htag
  · exact Tree.obeys_children_of_isTextLeaf hleaf
  · have hchildren : inner.rest.Obeys (Inside held) :=
      hinner.obeys wears_inside hp (hforest _ hmem htag)
    rcases hfrom with hfrom | hfrom <;> rw [hfrom]
    · exact hchildren
    · exact hchildren.settle wears_inside _

theorem ParagraphsHold.dropUndefined {names : List String} {forest : Forest}
    (hforest : forest.ParagraphsHold held) :
    (Note.dropUndefined names forest).1.ParagraphsHold held := by
  induction names generalizing forest with
  | nil => exact hforest
  | cons name names ih =>
      exact ih (hforest.removeWhere fun _ => Tree.goesWhenEmpty_of_refersTo)

/-! ## Notes -/

theorem not_hasTag_referenceTree (note : Note) (index : Nat) (data : Node) :
    (note.referenceTree index data).Obeys fun data _ => ∀ tag ∈ blockTags, ¬ data.HasTag tag := by
  refine Tree.obeys_node.mpr ⟨not_hasTag_of_element (.inl rfl) rfl (by decide), obeys_cons.mpr
    ⟨Tree.obeys_node.mpr ⟨not_hasTag_of_element (.inr rfl) rfl (by decide), obeys_nil⟩,
      obeys_nil⟩⟩

theorem inside_forestRewriteNoteRefs {notes : List Note} (seen : List String) {forest : Forest}
    (hforest : forest.Obeys (Inside held)) :
    Forest.Obeys (Inside held) (Tree.forestRewriteNoteRefs notes seen forest).1 := by
  refine Tree.forestObeys_rewriteNoteRefs (fun _ _ _ hdata => hdata) (fun _ _ hdata => hdata)
    (fun note index data _ _ _ => ?_) seen hforest
  exact (not_hasTag_referenceTree note index data).mono fun _ _ => inside_of_other

theorem ParagraphsHold.rewriteNoteRefs {notes : List Note} (seen : List String) {forest : Forest}
    (hforest : forest.ParagraphsHold held) :
    ParagraphsHold held (Tree.forestRewriteNoteRefs notes seen forest).1 := by
  intro tree hmem htag
  rcases Tree.origin_forestRewriteNoteRefs hmem with
    hmem | ⟨reference, -, -, note, index, hmem⟩ | ⟨children, earlier, hmem, -, hfrom⟩
  · exact hforest tree hmem htag
  · have hdata := (not_hasTag_referenceTree note index reference.data).of_mem_subtrees hmem
    exact absurd htag (hdata.data "p" (by decide))
  · rw [hfrom]
    exact inside_forestRewriteNoteRefs earlier (hforest _ hmem htag)

/-- There is no paragraph in the notes section. -/
theorem paragraphsHold_sectionOf (notes : List Note) :
    (Note.sectionOf notes).ParagraphsHold held := by
  have helement : ∀ {data : Node} {tag : String} {attributes : List (String × String)}
      {content : Option String}, data.kind = .container ∨ data.kind = .ready →
      data.element = some { tag, attributes, content } → "p" ≠ tag → ¬ data.HasTag "p" :=
    fun {_ tag _ _} hkind helement htag => not_hasTag_of_element hkind helement
      (show tag ∉ ["p"] by simpa using htag.symm) "p" (List.mem_singleton_self _)
  have hheading : ¬ HasTag "p" { kind := .aggregate (.style (.heading .two)) } :=
    fun htag => htag.elim (by decide) nofun
  refine .of_none (Note.obeys_sectionOf notes hheading (not_hasTag_of_text (.inr rfl) rfl "p")
    (helement (.inl rfl) rfl (by decide)) fun data kinds hnode => ?_)
  cases hnode with
  | entry | body => exact helement (.inl rfl) rfl (by decide)
  | name | backlink => exact helement (.inr rfl) rfl (by decide)
  | text => exact not_hasTag_of_text (.inl rfl) rfl "p"

theorem ParagraphsHold.resolve (definitions : List Directive) {forest : Forest}
    (hforest : forest.ParagraphsHold held) :
    (Note.resolve definitions forest).1.ParagraphsHold held := by
  rw [Note.resolve_eq]
  dsimp only
  split
  next => exact hforest.dropUndefined
  next =>
    exact paragraphsHold_append.mpr
      ⟨hforest.dropUndefined.rewriteNoteRefs [], paragraphsHold_sectionOf _⟩

/-! ## Links and embeds -/

section Expand

variable {f : Tree → Option (Forest × List Notice)}

/-- What takes the place of the tree holds no paragraph, and no block but the one that the
tree was to be. -/
def StandsFor (tree : Tree) (answer : Forest) : Prop :=
  answer.Obeys fun data _ => ∀ tag ∈ blockTags, data.HasTag tag →
    tag ≠ "p" ∧ tree.data.HasTag tag ∧ data.opener = tree.data.opener

theorem StandsFor.of_others {tree : Tree} {answer : Forest}
    (hanswer : answer.Obeys fun data _ => ∀ tag ∈ blockTags, ¬ data.HasTag tag) :
    StandsFor tree answer :=
  Tree.forestObeys_mono (fun _ _ hdata tag hmem htag => absurd htag (hdata tag hmem)) hanswer

theorem ParagraphsHold.forestExpand
    (hf : ∀ tree answer, f tree = some answer → StandsFor tree answer.1)
    {forest : Forest} (hforest : forest.ParagraphsHold held) :
    ParagraphsHold held (Tree.forestExpand f forest).1 := by
  have hinside : ∀ tree answer, tree.Obeys (Inside held) → f tree = some answer →
      answer.1.Obeys (Inside held) := by
    intro tree answer htree hanswer
    refine Tree.forestObeys_mono (fun data kinds hdata tag hmem htag => ?_) (hf tree answer hanswer)
    obtain ⟨-, hstood, hopener⟩ := hdata tag hmem htag
    rw [hopener]
    exact htree.data tag hmem hstood
  intro tree hmem htag
  rcases Tree.origin_forestExpand hmem with
    ⟨replaced, -, answer, hanswer, hmem⟩ | ⟨children, hmem, -, hfrom⟩
  · have hdata := (Tree.forestObeys_of_mem_subtrees (hf _ _ hanswer) hmem).data
    exact absurd rfl (hdata "p" (by decide) htag).1
  · rw [hfrom]
    exact Tree.forestObeys_expand (fun _ _ _ hdata => hdata) hinside (hforest _ hmem htag)

end Expand

theorem ParagraphsHold.resolveExternals {forest : Forest} (hforest : forest.ParagraphsHold held) :
    (Link.resolveExternals forest).1.ParagraphsHold held := by
  refine hforest.forestExpand fun tree answer hanswer => .of_others ?_
  cases (Link.answers_of_resolveExternal? hanswer).2 with
  | removed => exact obeys_nil
  | leaf =>
      exact obeys_cons.mpr ⟨Tree.obeys_node.mpr
        ⟨not_hasTag_of_element (.inr rfl) rfl (by decide), obeys_nil⟩, obeys_nil⟩

theorem standsFor_figure (embed : Embed) (media : Media) (width : Nat) {tree : Tree}
    (hkind : tree.kind = .aggregate (.bracket .embeddedFile)) :
    StandsFor tree [embed.figure media width tree.data] := by
  have hchildren : (embed.figure media width tree.data).children.Obeys
      fun data _ => ∀ tag ∈ blockTags, ¬ data.HasTag tag :=
    obeys_cons.mpr
      ⟨Tree.obeys_node.mpr ⟨not_hasTag_of_element (.inl rfl) rfl (by decide), obeys_cons.mpr
        ⟨Tree.obeys_node.mpr ⟨not_hasTag_of_element (.inr rfl) rfl (by decide), obeys_nil⟩,
          obeys_nil⟩⟩,
      obeys_cons.mpr ⟨Tree.obeys_node.mpr
        ⟨not_hasTag_of_element (.inr rfl) rfl (by decide), obeys_nil⟩, obeys_nil⟩⟩
  refine obeys_cons.mpr ⟨Tree.obeys_node.mpr ⟨fun tag _ htag => ?_,
    StandsFor.of_others hchildren⟩, obeys_nil⟩
  obtain rfl : "figure" = tag := by simpa [HasTag, blockTag?] using htag
  refine ⟨by decide, .inl ?_, rfl⟩
  rw [blockTag?, show tree.data.kind = _ from hkind]

theorem ParagraphsHold.resolveAll (registries : Registries) {forest : Forest}
    (hforest : forest.ParagraphsHold held) :
    (Embed.resolveAll registries forest).1.ParagraphsHold held := by
  refine hforest.forestExpand fun tree answer hanswer => ?_
  obtain ⟨hkind, hanswers⟩ := Embed.answers_of_resolve? hanswer
  cases hanswers with
  | removed => exact obeys_nil
  | figure => exact standsFor_figure _ _ _ hkind

/-! ## Headings and lowering -/

theorem ParagraphsHold.dropBlankHeadings {forest : Forest} (hforest : forest.ParagraphsHold held) :
    forest.dropBlankHeadings.1.ParagraphsHold held := by
  have htrimmed : ParagraphsHold held (Tree.forestTrimHeadings forest) := by
    intro tree hmem htag
    rcases Tree.origin_forestTrimHeadings hmem with hleaf | ⟨children, hmem, hfrom⟩
    · exact Tree.obeys_children_of_isTextLeaf hleaf
    · have hchildren : Forest.Obeys (Inside held) (Tree.forestTrimHeadings children) :=
        Tree.forestObeys_trimHeadings wears_inside (fun hdata _ _ => hdata) (hforest _ hmem htag)
      rcases hfrom with hfrom | hfrom <;> rw [hfrom]
      · exact hchildren
      · exact hchildren.trimEdges wears_inside
  exact htrimmed.removeWhere fun _ => Tree.goesWhenEmpty_of_blank

theorem ParagraphsHold.resolved (registries : Registries) (definitions : List Directive)
    {forest : Forest} (hforest : forest.ParagraphsHold held) :
    (forest.resolved registries definitions).ParagraphsHold held :=
  ((hforest.resolve definitions).resolveExternals.resolveAll registries).dropBlankHeadings

end Forest

namespace Node

/-- Slugging gives a heading the tag that it was to get. -/
theorem hasTag_of_sluggified {data slugged : Node} (hslugged : Tree.Sluggified data slugged)
    {tag : String} (htag : slugged.HasTag tag) : data.HasTag tag ∧ slugged.opener = data.opener := by
  rcases hslugged with rfl | ⟨level, slug, hlevel, rfl⟩
  · exact ⟨htag, rfl⟩
  · have hkind := Kind.eq_heading_of_headingLevel? hlevel
    refine ⟨.inl ?_, rfl⟩
    simpa [HasTag, blockTag?, hkind] using htag

/-- Lowering gives a block the tag that it was to get, and no block tag to anything else. -/
theorem hasTag_of_lowered {data : Node} {children : Forest} {tag : String} (hmem : tag ∈ blockTags)
    (htag : (Tree.lowerNode data children).data.HasTag tag) : data.HasTag tag := by
  have htagged : ∀ {other : String} {children : Forest},
      (Tree.tagged other data children).data.HasTag tag → tag = other := by
    intro other children htag
    simpa [HasTag, blockTag?, Tree.tagged, eq_comm] using htag
  have hlowers := Tree.lowers_lowerNode data children
  generalize Tree.lowerNode data children = lowered at hlowers htag
  cases hlowers with
  | done => exact htag
  | heading => exact .inr (by simpa [HasTag, blockTag?] using htag)
  | tagged htakes =>
      obtain rfl := htagged htag
      refine .inl ?_
      rw [blockTag?]
      generalize data.kind = kind at htakes ⊢
      cases htakes with
      | blockquote => rfl
      | paragraph => rfl
      | _ => exact absurd hmem (by decide)
  | emBold => exact absurd (htagged htag ▸ hmem) (by decide)
  | text => exact absurd htag (not_hasTag_of_text (.inl rfl) rfl tag)

theorem opener_lowerNode (data : Node) (children : Forest) :
    (Tree.lowerNode data children).data.opener = data.opener := by
  have hlowers := Tree.lowers_lowerNode data children
  generalize Tree.lowerNode data children = lowered at hlowers ⊢
  cases hlowers <;> rfl

end Node

namespace Forest

theorem inside_slugHeadings (slugger : Slugger) {forest : Forest}
    (hforest : forest.Obeys (Inside held)) :
    Forest.Obeys (Inside held) (Tree.forestSlugHeadings slugger forest).1 := by
  refine Tree.forestObeys_slugHeadings (fun data _ level slug hdata hlevel tag hmem htag => ?_)
    (fun _ _ hdata _ => hdata) slugger hforest
  obtain ⟨hhad, hopener⟩ := hasTag_of_sluggified (.inr ⟨level, slug, hlevel, rfl⟩) htag
  rw [hopener]
  exact hdata tag hmem hhad

theorem ParagraphsHold.slugHeadings {forest : Forest} (hforest : forest.ParagraphsHold held) :
    forest.slugHeadings.1.ParagraphsHold held := by
  intro tree hmem htag
  obtain ⟨data, children, later, hmem, hslugged, hfrom⟩ := Tree.origin_forestSlugHeadings hmem
  rw [hfrom]
  exact inside_slugHeadings later (hforest _ hmem (hasTag_of_sluggified hslugged htag).1)

theorem inside_bold {children : Forest} (hchildren : children.Obeys (Inside held)) :
    (Tree.container { tag := "b" } children).Obeys (Inside held) :=
  Tree.obeys_node.mpr
    ⟨inside_of_other (not_hasTag_of_element (.inl rfl) rfl (by decide)), hchildren⟩

/-- Between a lowered node and its children there is at most a bold text. -/
theorem inside_children_lowerNode (data : Node) {children : Forest}
    (hchildren : children.Obeys (Inside held)) :
    (Tree.lowerNode data children).children.Obeys (Inside held) := by
  have hlowers := Tree.lowers_lowerNode data children
  generalize Tree.lowerNode data children = lowered at hlowers ⊢
  cases hlowers with
  | emBold => exact obeys_cons.mpr ⟨inside_bold hchildren, obeys_nil⟩
  | _ => exact hchildren

theorem inside_forestLower {forest : Forest} (hforest : forest.Obeys (Inside held)) :
    Forest.Obeys (Inside held) (Tree.forestLower forest) := by
  refine Tree.forestObeys_lower (fun data _ lowered hdata _ hlowered => ?_) hforest
  have hchildren := inside_children_lowerNode data hlowered
  have hopener := opener_lowerNode data lowered
  have hback : ∀ {tag}, tag ∈ blockTags → (Tree.lowerNode data lowered).data.HasTag tag →
      data.HasTag tag := hasTag_of_lowered
  generalize Tree.lowerNode data lowered = tree at *
  obtain ⟨node, below⟩ := tree
  refine Tree.obeys_node.mpr ⟨fun tag hmem htag => ?_, hchildren⟩
  rw [show node.opener = data.opener from hopener]
  exact hdata tag hmem (hback hmem htag)

theorem ParagraphsHold.lower {forest : Forest} (hforest : forest.ParagraphsHold held) :
    forest.lower.ParagraphsHold held := by
  intro tree hmem htag
  obtain ⟨data, children, horigin, rfl | rfl⟩ := Tree.origin_forestLower hmem
  · have hdata := hasTag_of_lowered (by decide) htag
    exact inside_children_lowerNode data (inside_forestLower (hforest _ horigin hdata))
  · exact absurd htag (not_hasTag_of_element (.inl rfl) rfl
      (show "b" ∉ ["p"] by decide) "p" (List.mem_singleton_self _))

/-! ## Where paragraphs come from -/

/-- A paragraph of an arranged page holds the trees of a quoted line, or trees of the root
that are no blocks. -/
theorem paragraphsHold_arranged {body : Forest} (hbare : body.arranged.Obeys fun data _ =>
      data.element = none)
    (hplain : body.Obeys fun data _ => ¬ data.HasTag "p")
    (hquotes : ∀ line ∈ body, isQuote line = true → line.children.Obeys (Inside held))
    (hothers : ∀ tree ∈ body, tree.kind.isBlock = false → tree.Obeys (Inside held)) :
    body.arranged.ParagraphsHold held := by
  intro tree hmem htag
  have hbefore : tree ∉ body.subtrees := fun hmem =>
    (Tree.forestObeys_of_mem_subtrees hplain hmem).data htag
  -- A tree of a trimmed child list was there before, and then it is no paragraph.
  have htrimmed : ∀ {run : Forest}, run.subtrees ⊆ body.subtrees →
      tree ∈ run.trimEdges.subtrees → tree.children.Obeys (Inside held) := by
    intro run hrun hmem
    rcases mem_subtrees_trimEdges hmem with hmem | hleaf
    · exact absurd (hrun hmem) hbefore
    · exact Tree.obeys_children_of_isTextLeaf hleaf
  obtain ⟨top, htop, hmem⟩ := mem_subtrees.mp hmem
  rcases mem_paragraphs htop with ⟨htop, -⟩ | ⟨run, htop, hrun⟩
  · rcases mem_mergeQuotes (trimNewlines_subset _ htop) with ⟨htop, -⟩ | ⟨hquote, hlines⟩
    · exact absurd (mem_subtrees.mpr ⟨top, htop, hmem⟩) hbefore
    · rcases Tree.mem_subtrees_iff.mp hmem with rfl | hmem
      · have hkind : tree.kind = .aggregate (.line .blockquote) := by simpa [isQuote] using hquote
        have hdata := (Tree.forestObeys_of_mem_subtrees hbare ‹_›).data
        exact absurd htag fun htag => htag.elim
          (by simp [blockTag?, show tree.data.kind = _ from hkind])
          (by simp [show tree.data.element = none from hdata])
      · obtain ⟨child, hchild, hmem⟩ := mem_subtrees.mp hmem
        obtain ⟨line, hline, hlineQuote, hfrom⟩ := hlines child hchild
        obtain ⟨-, hchildren⟩ := mem_quotedParagraph hfrom
        rcases Tree.mem_subtrees_iff.mp hmem with rfl | hmem
        · rw [hchildren]
          exact (hquotes line hline hlineQuote).trimEdges wears_inside
        · rw [hchildren] at hmem
          exact htrimmed (mem_subtrees_of_mem hline).2 hmem
  · have hrun : ∀ inner ∈ run, inner ∈ body ∧ inner.kind.isBlock = false := by
      intro inner hinner
      obtain ⟨hinner, hblock⟩ := hrun inner hinner
      rcases mem_mergeQuotes (trimNewlines_subset _ hinner) with ⟨hinner, -⟩ | ⟨hquote, -⟩
      · exact ⟨hinner, hblock⟩
      · rw [show inner.kind = _ from beq_iff_eq.mp hquote] at hblock
        cases hblock
    obtain ⟨-, hchildren⟩ := mem_paragraphOf htop
    rcases Tree.mem_subtrees_iff.mp hmem with rfl | hmem
    · rw [hchildren]
      refine Obeys.trimEdges wears_inside (obeys_iff.mpr fun inner hinner => ?_)
      exact hothers inner (hrun inner hinner).1 (hrun inner hinner).2
    · rw [hchildren] at hmem
      exact htrimmed (subtrees_subset fun inner hinner => (hrun inner hinner).1) hmem

/-- A heading or an embed with the opening marker is written inside a quoted line or inside
a tree of the root that is no block, a style. -/
def Shelters (forest : Forest) (opener : Span) (tag : String) : Prop :=
  ∃ line ∈ forest, (isQuote line = true ∨ line.kind.isBlock = false) ∧
    ∃ inner ∈ line.children.subtrees, ∃ aggregate,
      inner.kind = .aggregate aggregate ∧ aggregate.isBlock = true ∧ aggregate.tag = tag ∧
        inner.data.opener = some opener

theorem blockTag?_of_aggregate {data : Node} {aggregate : Aggregate}
    (hkind : data.kind = .aggregate aggregate) :
    data.blockTag? = if aggregate.isBlock then some aggregate.tag else none := by
  rw [blockTag?, hkind]
  cases aggregate with
  | style style => cases style <;> rfl
  | bracket bracket => cases bracket <;> rfl
  | line line => cases line <;> rfl

/-- Before any pass, only an aggregate has the tag of a block. -/
theorem aggregate_of_hasTag {source : Source} {data : Node} {kinds : List Kind}
    (hdata : Built source data kinds) {tag : String} (htag : data.HasTag tag) :
    ∃ aggregate, data.kind = .aggregate aggregate ∧ aggregate.isBlock = true ∧
      aggregate.tag = tag := by
  have htag : data.blockTag? = some tag := htag.resolve_right (by simp [hdata.bare])
  have hraw := hdata.raw
  cases hkind : data.kind with
  | aggregate aggregate =>
      rw [blockTag?_of_aggregate hkind] at htag
      split at htag
      next hblock => exact ⟨aggregate, rfl, hblock, Option.some.inj htag⟩
      next => cases htag
  | paragraph => exact absurd hkind hdata.ne_paragraph
  | container =>
      rw [hkind] at hraw
      cases hraw rfl
  | _ =>
      rw [blockTag?, hkind] at htag
      cases htag

variable {source : Source} {body : Forest}

theorem opened_ofLexemes (hbody : ofLexemes source.lexemes = .ok body) :
    body.Obeys fun data _ => data.kind.aggregate?.isSome = true → data.opener.isSome = true := by
  have hgrammatical := ((ofLexemes_eq_ok_iff source.isRaw_lexemes body).mp hbody).1
  exact obeys_iff.mpr fun tree htree => (hgrammatical tree htree).opened

/-- What is inside a quoted line or a style is sheltered there. -/
theorem inside_sheltered (hbody : ofLexemes source.lexemes = .ok body) {line : Tree}
    (hline : line ∈ body) (hkind : isQuote line = true ∨ line.kind.isBlock = false) :
    line.children.Obeys (Inside body.Shelters) := by
  refine Tree.forestObeys_of_subtrees fun below hbelow tag _ htag => ?_
  have hmem := (mem_subtrees_of_mem hline).2 below hbelow
  have hdata := (Tree.forestObeys_of_mem_subtrees (built_ofLexemes hbody) hmem).data
  obtain ⟨aggregate, haggregate, hblock, hshown⟩ := aggregate_of_hasTag hdata htag
  have hopened := (Tree.forestObeys_of_mem_subtrees (opened_ofLexemes hbody) hmem).data
  obtain ⟨opener, hopener⟩ := Option.isSome_iff_exists.mp (hopened (by rw [haggregate]; rfl))
  exact ⟨opener, hopener, line, hline, hkind, below, hbelow, aggregate, haggregate, hblock, hshown,
    hopener⟩

theorem mem_forestPruneEmpty {forest : Forest} {tree : Tree}
    (hmem : tree ∈ (Tree.forestPruneEmpty forest).1) :
    ∃ children, .node tree.data children ∈ forest ∧
      tree.children = (Tree.forestPruneEmpty children).1 := by
  induction forest with
  | nil => simp [Tree.forestPruneEmpty] at hmem
  | cons first rest ih =>
      rw [Tree.forestPruneEmpty] at hmem
      rcases List.mem_append.mp hmem with hmem | hmem
      · obtain ⟨data, children⟩ := first
        rw [Tree.pruneEmpty] at hmem
        dsimp only at hmem
        split at hmem
        next => cases hmem
        next =>
          obtain rfl := List.mem_singleton.mp hmem
          exact ⟨children, List.mem_cons_self, rfl⟩
      · obtain ⟨children, hmem, hfrom⟩ := ih hmem
        exact ⟨children, List.mem_cons_of_mem _ hmem, hfrom⟩

/-- No aggregate is shown as a paragraph. -/
theorem tag_ne_paragraph (aggregate : Aggregate) : aggregate.tag ≠ "p" := by
  cases aggregate with
  | style style =>
      cases style with
      | heading level => cases level <;> decide
      | _ => decide
  | bracket bracket => cases bracket <;> decide
  | line line => cases line <;> decide

/-- Blocks in the paragraphs of an arranged page are sheltered in the forest it stems from. -/
theorem paragraphsHold_lifted (hbody : ofLexemes source.lexemes = .ok body)
    (hcheck : body.check = .ok ()) :
    (arranged (Directive.body source body.pruneEmpty.1)).ParagraphsHold body.Shelters := by
  have hkept : Directive.body source body.pruneEmpty.1 ⊆ body.pruneEmpty.1 :=
    List.filter_sublist.subset
  have htagged : Obeys (fun data _ => ∀ tag, data.HasTag tag → ∃ aggregate,
      data.kind = .aggregate aggregate ∧ aggregate.isBlock = true ∧ aggregate.tag = tag)
      (Directive.body source body.pruneEmpty.1) :=
    (Tree.forestObeys_pruneEmpty (fun hdata _ => hdata) (Tree.forestObeys_mono
      (fun _ _ hdata _ htag => aggregate_of_hasTag hdata htag) (built_ofLexemes hbody))).subset hkept
  have hchildren : ∀ line ∈ Directive.body source body.pruneEmpty.1,
      isQuote line = true ∨ line.kind.isBlock = false →
        line.children.Obeys (Inside body.Shelters) := by
    intro line hline hkind
    obtain ⟨children, hmem, hfrom⟩ := mem_forestPruneEmpty (hkept hline)
    rw [hfrom]
    exact Tree.forestObeys_pruneEmpty (fun hdata _ => hdata) (inside_sheltered hbody hmem hkind)
  refine paragraphsHold_arranged ?_ ?_ (fun line hline hquote => hchildren line hline (.inl hquote))
    fun tree hmem hblock => ?_
  · exact Tree.forestObeys_mono (fun _ _ hdata => hdata.element_eq_none)
      ((sound_lifted hbody hcheck).arranged (.sound (by decide)))
  · refine Tree.forestObeys_mono (fun data kinds hdata htag => ?_) htagged
    obtain ⟨aggregate, -, -, htag⟩ := hdata "p" htag
    exact tag_ne_paragraph aggregate htag
  · have hdata := (obeys_iff.mp htagged tree hmem).data
    have hinside := hchildren tree hmem (.inr hblock)
    obtain ⟨data, children⟩ := tree
    refine Tree.obeys_node.mpr ⟨fun tag _ htag => ?_, hinside⟩
    obtain ⟨aggregate, hkind, hisBlock, -⟩ := hdata tag htag
    rw [show (Tree.node data children).kind = _ from hkind] at hblock
    rw [show aggregate.isBlock = false from hblock] at hisBlock
    cases hisBlock

/-- Quoted lines stand at the root, so what is sheltered is a heading or an embed. -/
theorem Shelters.tag_ne {opener : Span} {tag : String} (hcheck : body.check = .ok ())
    (hshelters : body.Shelters opener tag) : tag ≠ "p" ∧ tag ≠ quoteTag := by
  obtain ⟨line, hline, -, inner, hinner, aggregate, hkind, -, rfl, -⟩ := hshelters
  refine ⟨tag_ne_paragraph aggregate, fun hquote => ?_⟩
  have hchecked := obeys_iff.mp (checked_of_check hcheck) line hline
  have hplaced := Tree.forestObeys_of_mem_subtrees
    (Tree.forestObeys_placed hchecked.children hchecked.data.placed) hinner
  rw [Aggregate.tag_eq_quoteTag_iff.mp hquote] at hkind
  have hroot := hplaced.data
  rw [show inner.data.kind = _ from hkind] at hroot
  cases hroot

end Forest

end PageMarkup
