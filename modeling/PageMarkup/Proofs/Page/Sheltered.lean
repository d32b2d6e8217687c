import Mathlib.Data.List.TakeWhile
import PageMarkup.Proofs.Page.Paragraphs

/-! # Blocks inside lines

A heading or an embed inside a style or a quoted line goes into the paragraph that is made
of the line. The passes after that go down to it through quotes and paragraphs, which they
leave as they are. If there is no warning nothing is taken out, so the block is still in the
paragraph when the page is done.
-/

namespace PageMarkup

open Node Forest Html

namespace Forest

/-- A marker with a tag is kept or promised in a paragraph of the forest or of a quote in it. -/
inductive Reaches (entry : Span × String) : Forest → Prop where
  | paragraph {forest : Forest} (data : Node) (children : Forest) :
      .node data children ∈ forest → data.kind = .paragraph → entry ∈ children.traces →
      Reaches entry forest
  | quote {forest : Forest} (data : Node) (children : Forest) :
      .node data children ∈ forest → data.kind = .aggregate (.line .blockquote) →
      Reaches entry children → Reaches entry forest

/-- One forest leads to another by a pass that leaves quotes and paragraphs, goes on below
them, and keeps what is kept or promised. -/
structure Descends (pass : Forest → Forest → Prop) : Prop where
  frames : ∀ {first second}, pass first second → ∀ {data children}, .node data children ∈ first →
    data.kind = .paragraph ∨ data.kind = .aggregate (.line .blockquote) →
    ∃ below, .node data below ∈ second ∧ pass children below
  traces : ∀ {first second}, pass first second → second.traces = first.traces

variable {entry : Span × String}

theorem Reaches.mono {forest others : Forest} (hreaches : Reaches entry forest)
    (hsubset : forest ⊆ others) : Reaches entry others := by
  cases hreaches with
  | paragraph data children hmem hkind htrace =>
      exact .paragraph data children (hsubset hmem) hkind htrace
  | quote data children hmem hkind hbelow => exact .quote data children (hsubset hmem) hkind hbelow

theorem Reaches.descend {pass : Forest → Forest → Prop} (hpass : Descends pass)
    {first second : Forest} (hreaches : Reaches entry first) (hsecond : pass first second) :
    Reaches entry second := by
  induction hreaches generalizing second with
  | paragraph data children hmem hkind htrace =>
      obtain ⟨below, hmem, hbelow⟩ := hpass.frames hsecond hmem (.inl hkind)
      exact .paragraph data below hmem hkind (hpass.traces hbelow ▸ htrace)
  | quote data children hmem hkind _ ih =>
      obtain ⟨below, hmem, hbelow⟩ := hpass.frames hsecond hmem (.inr hkind)
      exact .quote data below hmem hkind (ih hbelow)

/-! ## Notes -/

theorem exists_mem_forestRewriteNoteRefs (notes : List Note) (seen : List String)
    {forest : Forest} {tree : Tree} (hmem : tree ∈ forest) :
    ∃ earlier, (tree.rewriteNoteRefs notes earlier).1 ∈
      (Tree.forestRewriteNoteRefs notes seen forest).1 := by
  induction forest generalizing seen with
  | nil => cases hmem
  | cons first rest ih =>
      rcases List.mem_cons.mp hmem with rfl | hmem
      · exact ⟨seen, List.mem_cons_self⟩
      · obtain ⟨earlier, hfound⟩ := ih _ hmem
        exact ⟨earlier, List.mem_cons_of_mem _ hfound⟩

theorem descends_rewriteNoteRefs (notes : List Note) :
    Descends fun first second => first.Obeys (Sound liftedKinds) ∧ first.Obeys Raw ∧
      ∃ seen, second = (Tree.forestRewriteNoteRefs notes seen first).1 where
  frames := by
    rintro first _ ⟨hsound, hraw, seen, rfl⟩ data children hmem hkind
    obtain ⟨earlier, hfound⟩ := exists_mem_forestRewriteNoteRefs notes seen hmem
    refine ⟨_, ?_, (obeys_iff.mp hsound _ hmem).children, (obeys_iff.mp hraw _ hmem).children,
      earlier, rfl⟩
    rw [Tree.rewriteNoteRefs] at hfound
    dsimp only at hfound
    split at hfound
    next href =>
      rw [Tree.isNoteRef, beq_iff_eq, Tree.kind_node] at href
      rcases hkind with hkind | hkind <;> rw [href] at hkind <;> cases hkind
    next => exact hfound
  traces := by
    rintro first _ ⟨hsound, hraw, seen, rfl⟩
    exact Tree.traces_forestRewriteNoteRefs notes seen hsound hraw

theorem Reaches.resolve (definitions : List Directive) {body : Forest}
    (hsound : body.Obeys (Sound liftedKinds)) (hraw : body.Obeys Raw)
    (hquiet : ∀ notice ∈ (Note.resolve definitions body).2, notice.IsQuiet)
    (hreaches : Reaches entry body) : Reaches entry (Note.resolve definitions body).1 := by
  have hkept := Note.withoutUndefined_of_quiet hquiet
  rw [Note.resolve_eq]
  dsimp only
  rw [hkept]
  split
  next => exact hreaches
  next =>
    exact (hreaches.descend (descends_rewriteNoteRefs _) ⟨hsound, hraw, [], rfl⟩).mono
      (List.subset_append_left _ _)

/-! ## Links and embeds -/

section Expand

variable {f : Tree → Option (Forest × List Notice)}

theorem expand_subset {forest : Forest} {tree : Tree} (hmem : tree ∈ forest) :
    (Tree.expand f tree).1 ⊆ (Tree.forestExpand f forest).1 ∧
      (Tree.expand f tree).2 ⊆ (Tree.forestExpand f forest).2 := by
  induction forest with
  | nil => cases hmem
  | cons first rest ih =>
      rw [Tree.forestExpand]
      rcases List.mem_cons.mp hmem with rfl | hmem
      · exact ⟨List.subset_append_left _ _, List.subset_append_left _ _⟩
      · obtain ⟨hforest, hnotices⟩ := ih hmem
        exact ⟨List.subset_append_of_subset_right _ hforest,
          List.subset_append_of_subset_right _ hnotices⟩

/-- Expanding goes down through what gets no answer. -/
theorem descends_forestExpand {rule : Rule}
    (hnone : ∀ data children, data.kind = .paragraph ∨ data.kind = .aggregate (.line .blockquote) →
      f (.node data children) = none)
    (htraces : ∀ {forest : Forest}, forest.Obeys rule →
      (∀ notice ∈ (Tree.forestExpand f forest).2, notice.IsQuiet) →
      traces (Tree.forestExpand f forest).1 = forest.traces) :
    Descends fun first second => first.Obeys rule ∧
      (∀ notice ∈ (Tree.forestExpand f first).2, notice.IsQuiet) ∧
      second = (Tree.forestExpand f first).1 where
  frames := by
    rintro first _ ⟨hrule, hquiet, rfl⟩ data children hmem hkind
    obtain ⟨hforest, hnotices⟩ := expand_subset (f := f) hmem
    rw [Tree.expand, hnone data children hkind] at hforest hnotices
    exact ⟨_, hforest List.mem_cons_self, (obeys_iff.mp hrule _ hmem).children,
      fun notice hmem => hquiet notice (hnotices hmem), rfl⟩
  traces := by
    rintro first _ ⟨hrule, hquiet, rfl⟩
    exact htraces hrule hquiet

end Expand

theorem Reaches.resolveExternals {body : Forest} (hsound : body.Obeys (Sound resolvedKinds))
    (hraw : body.Obeys Raw)
    (hquiet : ∀ notice ∈ (Link.resolveExternals body).2, notice.IsQuiet)
    (hreaches : Reaches entry body) : Reaches entry (Link.resolveExternals body).1 := by
  refine hreaches.descend (descends_forestExpand (fun data children hkind => ?_)
    fun hforest hquiet => ?_) ⟨Tree.forestObeys_and hsound hraw, hquiet, rfl⟩
  · refine Link.resolveExternal?_eq_none_iff.mpr fun hlink => ?_
    rcases hkind with hkind | hkind <;> rw [show data.kind = _ from hlink] at hkind <;> cases hkind
  · exact Link.traces_resolveExternals (Tree.forestObeys_mono (fun _ _ hdata => hdata.1) hforest)
      (Tree.forestObeys_mono (fun _ _ hdata => hdata.2) hforest) hquiet

theorem Reaches.resolveAll {registries : Registries} {body : Forest}
    (hsound : body.Obeys (Sound linkedKinds)) (hraw : body.Obeys Raw)
    (hquiet : ∀ notice ∈ (Embed.resolveAll registries body).2, notice.IsQuiet)
    (hreaches : Reaches entry body) : Reaches entry (Embed.resolveAll registries body).1 := by
  refine hreaches.descend (descends_forestExpand (fun data children hkind => ?_)
    fun hforest hquiet => ?_) ⟨Tree.forestObeys_and hsound hraw, hquiet, rfl⟩
  · refine Embed.resolve?_eq_none_iff.mpr fun hembed => ?_
    rcases hkind with hkind | hkind <;> rw [show data.kind = _ from hembed] at hkind <;> cases hkind
  · exact Embed.traces_resolveAll (Tree.forestObeys_mono (fun _ _ hdata => hdata.1) hforest)
      (Tree.forestObeys_mono (fun _ _ hdata => hdata.2) hforest) hquiet

/-! ## Headings and lowering -/

theorem mem_forestTrimHeadings {forest : Forest} {tree : Tree} (hmem : tree ∈ forest) :
    tree.trimHeadings ∈ Tree.forestTrimHeadings forest := by
  induction forest with
  | nil => cases hmem
  | cons first rest ih =>
      rcases List.mem_cons.mp hmem with rfl | hmem
      · exact List.mem_cons_self
      · exact List.mem_cons_of_mem _ (ih hmem)

theorem descends_forestTrimHeadings :
    Descends fun first second => second = Tree.forestTrimHeadings first where
  frames := by
    rintro first _ rfl data children hmem hkind
    have hlevel : data.kind.headingLevel? = none := by
      rcases hkind with hkind | hkind <;> rw [hkind] <;> rfl
    have hfound := mem_forestTrimHeadings hmem
    rw [Tree.trimHeadings, hlevel] at hfound
    exact ⟨_, hfound, rfl⟩
  traces := by
    rintro first _ rfl
    exact traces_forestTrimHeadings first

theorem exists_mem_forestSlugHeadings (slugger : Slugger) {forest : Forest} {tree : Tree}
    (hmem : tree ∈ forest) :
    ∃ later, (tree.slugHeadings later).1 ∈ (Tree.forestSlugHeadings slugger forest).1 := by
  induction forest generalizing slugger with
  | nil => cases hmem
  | cons first rest ih =>
      rcases List.mem_cons.mp hmem with rfl | hmem
      · exact ⟨slugger, List.mem_cons_self⟩
      · obtain ⟨later, hfound⟩ := ih _ hmem
        exact ⟨later, List.mem_cons_of_mem _ hfound⟩

theorem descends_slugHeadings :
    Descends fun first second => first.Obeys (Sound embeddedKinds) ∧
      ∃ slugger, second = (Tree.forestSlugHeadings slugger first).1 where
  frames := by
    rintro first _ ⟨hsound, slugger, rfl⟩ data children hmem hkind
    have hlevel : data.kind.headingLevel? = none := by
      rcases hkind with hkind | hkind <;> rw [hkind] <;> rfl
    obtain ⟨later, hfound⟩ := exists_mem_forestSlugHeadings slugger hmem
    rw [Tree.slugHeadings, hlevel] at hfound
    exact ⟨_, hfound, (obeys_iff.mp hsound _ hmem).children, later, rfl⟩
  traces := by
    rintro first _ ⟨hsound, slugger, rfl⟩
    exact traces_forestSlugHeadings slugger hsound

theorem Reaches.slugHeadings {body : Forest} (hsound : body.Obeys (Sound embeddedKinds))
    (hreaches : Reaches entry body) : Reaches entry body.slugHeadings.1 :=
  hreaches.descend descends_slugHeadings ⟨hsound, body.reservingSlugger, rfl⟩

theorem mem_lower {forest : Forest} {tree : Tree} (hmem : tree ∈ forest) :
    tree.lower ∈ forest.lower := by
  induction forest with
  | nil => cases hmem
  | cons first rest ih =>
      rcases List.mem_cons.mp hmem with rfl | hmem
      · exact List.mem_cons_self
      · exact List.mem_cons_of_mem _ (ih hmem)

/-- A lowered page has what is reached in one of its paragraphs. -/
theorem Reaches.in_lowered {forest : Forest}
    (hforest : forest.Obeys fun data kinds => Outlined data kinds ∧ Raw data kinds)
    (hreaches : Reaches entry forest) :
    ∃ paragraph ∈ forest.lower.subtrees, paragraph.tag? = some "p" ∧
      entry ∈ paragraph.children.traces := by
  induction hreaches with
  | paragraph data children hmem hkind htrace =>
      have hlowered := mem_lower hmem
      rw [Tree.lower, Tree.lowerNode, hkind] at hlowered
      have htraces := traces_forestLower (obeys_iff.mp hforest _ hmem).children
      refine ⟨_, (mem_subtrees_of_mem hlowered).1, rfl, ?_⟩
      exact (show traces (Tree.forestLower children) = children.traces from htraces) ▸ htrace
  | quote data children hmem hkind _ ih =>
      have hlowered := mem_lower hmem
      rw [Tree.lower, Tree.lowerNode, hkind] at hlowered
      obtain ⟨paragraph, hparagraph, hp, htrace⟩ := ih (obeys_iff.mp hforest _ hmem).children
      exact ⟨paragraph, (mem_subtrees_of_mem hlowered).2 paragraph hparagraph, hp, htrace⟩

/-! ## From the source to a paragraph -/

/-- The paragraph of a quoted line is in a quote. -/
theorem exists_quote_joinQuotes {forest : Forest} {line : Tree} (hmem : line ∈ forest)
    (hline : isQuote line = true) :
    ∃ quote ∈ joinQuotes forest, isQuote quote = true ∧ quotedParagraph line ⊆ quote.children := by
  induction forest with
  | nil => cases hmem
  | cons first rest ih =>
      rw [joinQuotes]
      rcases List.mem_cons.mp hmem with rfl | hmem
      · rw [if_pos hline]
        cases joinQuotes rest with
        | nil => exact ⟨_, List.mem_cons_self, hline, List.Subset.refl _⟩
        | cons next others =>
            rw [prependQuote]
            split
            next => exact ⟨_, List.mem_cons_self, hline, List.subset_append_left _ _⟩
            next => exact ⟨_, List.mem_cons_self, hline, List.Subset.refl _⟩
      · obtain ⟨quote, hquote, hkind, hparagraph⟩ := ih hmem
        split
        next hfirst =>
          cases hjoined : joinQuotes rest with
          | nil =>
              rw [hjoined] at hquote
              cases hquote
          | cons next others =>
              rw [hjoined] at hquote
              rw [prependQuote]
              split
              next =>
                rcases List.mem_cons.mp hquote with rfl | hquote
                · exact ⟨_, List.mem_cons_self, hfirst,
                    List.subset_append_of_subset_right _ hparagraph⟩
                · exact ⟨quote, List.mem_cons_of_mem _ hquote, hkind, hparagraph⟩
              next => exact ⟨quote, List.mem_cons_of_mem _ hquote, hkind, hparagraph⟩
        next => exact ⟨quote, List.mem_cons_of_mem _ hquote, hkind, hparagraph⟩

theorem mem_joinQuotes_of_not {forest : Forest} {tree : Tree} (hmem : tree ∈ forest)
    (hnot : isQuote tree = false) : tree ∈ joinQuotes forest := by
  induction forest with
  | nil => cases hmem
  | cons first rest ih =>
      rw [joinQuotes]
      rcases List.mem_cons.mp hmem with rfl | hmem
      · rw [if_neg (by simp [hnot])]
        exact List.mem_cons_self
      · have hfound := ih hmem
        split
        next =>
          cases hjoined : joinQuotes rest with
          | nil =>
              rw [hjoined] at hfound
              cases hfound
          | cons next others =>
              rw [hjoined] at hfound
              rw [prependQuote]
              split
              next hnext =>
                rcases List.mem_cons.mp hfound with rfl | hfound
                · rw [hnext] at hnot
                  cases hnot
                · exact List.mem_cons_of_mem _ hfound
              next => exact List.mem_cons_of_mem _ hfound
        next => exact List.mem_cons_of_mem _ hfound

theorem mem_dropWhile_of_not {p : Tree → Bool} {forest : Forest} {tree : Tree}
    (hmem : tree ∈ forest) (hnot : p tree = false) : tree ∈ forest.dropWhile p := by
  rw [← List.takeWhile_append_dropWhile (p := p) (l := forest), List.mem_append] at hmem
  refine hmem.resolve_left fun hmem => ?_
  rw [List.mem_takeWhile_imp hmem] at hnot
  cases hnot

theorem mem_trimNewlines_of_not {forest : Forest} {tree : Tree} (hmem : tree ∈ forest)
    (hnot : isNewline tree = false) : tree ∈ forest.trimNewlines := by
  rw [trimNewlines, Text.dropTailWhile, List.mem_reverse]
  exact mem_dropWhile_of_not (List.mem_reverse.mpr (mem_dropWhile_of_not hmem hnot)) hnot

theorem mem_paragraphsFrom_of_isBlock {run forest : Forest} {tree : Tree} (hmem : tree ∈ forest)
    (hblock : tree.kind.isBlock = true) : tree ∈ paragraphsFrom run forest := by
  have hnot : isNewline tree = false := by
    refine Bool.eq_false_iff.mpr fun hnewline => ?_
    rw [show tree.kind = .newline by simpa [isNewline] using hnewline] at hblock
    cases hblock
  induction forest generalizing run with
  | nil => cases hmem
  | cons first rest ih =>
      rw [paragraphsFrom]
      rcases List.mem_cons.mp hmem with rfl | hmem
      · rw [if_neg (by simp [hnot]), if_pos hblock]
        exact List.mem_append_right _ List.mem_cons_self
      · split
        next => exact List.mem_append_right _ (ih hmem)
        next =>
          split
          next => exact List.mem_append_right _ (List.mem_cons_of_mem _ (ih hmem))
          next => exact ih hmem

/-- What is no newline and no block is part of a run that makes a paragraph. -/
theorem exists_run_paragraphsFrom (run : Forest) {forest : Forest} {tree : Tree}
    (hmem : tree ∈ run ∨ tree ∈ forest ∧ isNewline tree = false ∧ tree.kind.isBlock = false) :
    ∃ part : Forest, tree ∈ part ∧ paragraphOf part ⊆ paragraphsFrom run forest := by
  induction forest generalizing run with
  | nil =>
      have hmem := hmem.resolve_right fun hnone => nomatch hnone.1
      exact ⟨run.reverse, List.mem_reverse.mpr hmem, List.Subset.refl _⟩
  | cons first rest ih =>
      have hpassed : tree ∈ run → ∀ others : Forest, ∃ part : Forest,
          tree ∈ part ∧ paragraphOf part ⊆ paragraphOf run.reverse ++ others :=
        fun hmem others => ⟨run.reverse, List.mem_reverse.mpr hmem, List.subset_append_left _ _⟩
      rw [paragraphsFrom]
      split
      next hnewline =>
        rcases hmem with hmem | ⟨hmem, hnot, hblock⟩
        · exact hpassed hmem _
        · have hmem := (List.mem_cons.mp hmem).resolve_left fun heq => by
            rw [heq, hnewline] at hnot
            cases hnot
          obtain ⟨part, hpart, hsubset⟩ := ih [] (.inr ⟨hmem, hnot, hblock⟩)
          exact ⟨part, hpart, List.subset_append_of_subset_right _ hsubset⟩
      next =>
        split
        next hfirst =>
          rcases hmem with hmem | ⟨hmem, hnot, hblock⟩
          · exact hpassed hmem _
          · have hmem := (List.mem_cons.mp hmem).resolve_left fun heq => by
              rw [heq, hfirst] at hblock
              cases hblock
            obtain ⟨part, hpart, hsubset⟩ := ih [] (.inr ⟨hmem, hnot, hblock⟩)
            exact ⟨part, hpart, List.subset_append_of_subset_right _
              (List.subset_cons_of_subset _ hsubset)⟩
        next =>
          refine ih _ ?_
          rcases hmem with hmem | ⟨hmem, hothers⟩
          · exact .inl (List.mem_cons_of_mem _ hmem)
          · rcases List.mem_cons.mp hmem with rfl | hmem
            · exact .inl List.mem_cons_self
            · exact .inr ⟨hmem, hothers⟩

theorem traces_trimEdges (forest : Forest) : forest.trimEdges.traces = forest.traces :=
  census_trimEdges trims_trace forest

/-- What is promised below a quoted line is in a paragraph of a quote. -/
theorem reaches_of_quote {body : Forest} {line : Tree} (hmem : line ∈ body)
    (hline : isQuote line = true) (hentry : entry ∈ line.children.traces) :
    Reaches entry body.arranged := by
  obtain ⟨quote, hquote, hkind, hparagraph⟩ := exists_quote_joinQuotes hmem hline
  have hfull : line.children.trimEdges.isEmpty = false := by
    rw [← traces_trimEdges] at hentry
    cases hchildren : line.children.trimEdges with
    | nil =>
        rw [hchildren, traces_nil] at hentry
        cases hentry
    | cons => rfl
  have hinner : Tree.node { kind := .paragraph, span := line.data.span } line.children.trimEdges ∈
      quote.children := by
    refine hparagraph ?_
    rw [quotedParagraph, hfull]
    exact List.mem_singleton_self _
  have hmerged : quote ∈ body.mergeQuotes := by
    refine List.mem_filter.mpr ⟨hquote, ?_⟩
    rw [hkind, Bool.true_and, Bool.not_eq_true', Tree.isLeaf]
    cases hchildren : quote.children with
    | nil =>
        rw [hchildren] at hinner
        cases hinner
    | cons => rfl
  have hkind : quote.kind = .aggregate (.line .blockquote) := beq_iff_eq.mp hkind
  have harranged : quote ∈ body.arranged := by
    refine mem_paragraphsFrom_of_isBlock (mem_trimNewlines_of_not hmerged ?_) ?_
    · rw [isNewline, hkind]
      rfl
    · rw [hkind]
      rfl
  obtain ⟨data, children⟩ := quote
  exact .quote data children harranged hkind
    (.paragraph _ _ hinner rfl ((traces_trimEdges _).symm ▸ hentry))

/-- What is promised below a tree that is no block is in the paragraph of its run. -/
theorem reaches_of_other {body : Forest} (hbody : body.Obeys (Sound liftedKinds)) {tree : Tree}
    (hmem : tree ∈ body) (hblock : tree.kind.isBlock = false)
    (hentry : entry ∈ tree.children.traces) : Reaches entry body.arranged := by
  have hholds : tree.kind.canHaveChildren = true := by
    refine Bool.not_eq_false _ ▸ fun hleaf => ?_
    have hnone := (obeys_iff.mp hbody tree hmem).data.childless hleaf
    rw [List.map_eq_nil_iff.mp hnone, traces_nil] at hentry
    cases hentry
  have hnewline : isNewline tree = false := by
    refine beq_eq_false_iff_ne.mpr fun hkind => ?_
    rw [hkind] at hholds
    cases hholds
  have hquote : isQuote tree = false := by
    refine beq_eq_false_iff_ne.mpr fun hkind => ?_
    rw [hkind] at hblock
    cases hblock
  have hmerged : tree ∈ body.mergeQuotes :=
    List.mem_filter.mpr ⟨mem_joinQuotes_of_not hmem hquote, by rw [hquote]; rfl⟩
  obtain ⟨part, hpart, hsubset⟩ := exists_run_paragraphsFrom []
    (.inr ⟨mem_trimNewlines_of_not hmerged hnewline, hnewline, hblock⟩)
  have hfull : part.all isBlankText = false := by
    refine Bool.eq_false_iff.mpr fun hall => ?_
    have htext := List.all_eq_true.mp hall tree hpart
    rw [isBlankText, Bool.and_eq_true, beq_iff_eq] at htext
    rw [htext.1] at hholds
    cases hholds
  have hparagraph : Tree.node { kind := .paragraph, span := span part } part.trimEdges ∈
      body.arranged := by
    refine hsubset ?_
    rw [paragraphOf, hfull]
    exact List.mem_singleton_self _
  refine .paragraph _ _ hparagraph rfl ?_
  rw [traces_trimEdges, traces, census_eq_flatMap]
  refine List.mem_flatMap.mpr ⟨tree, hpart, ?_⟩
  obtain ⟨data, children⟩ := tree
  rw [census_cons]
  exact List.mem_append_right _ (List.mem_append_left _ hentry)

end Forest

/-! ## Pages -/

theorem Node.hasTag_of_tag? {tree : Tree} {tag : String} (htag : tree.tag? = some tag) :
    tree.data.HasTag tag := .inr htag

/-- A block of an aggregate that is kept as an element has its marker and its tag. -/
theorem Node.Finished.tag?_of_trace {tree : Tree} {kinds : List Kind}
    (htree : Finished tree.data kinds) {entry : Span × String} (hentry : entry ∈ tree.data.trace) :
    tree.tag? = some entry.2 ∧ tree.data.opener = some entry.1 := by
  cases helement : tree.data.element with
  | none =>
      have hkind : tree.data.kind = .ready := by
        refine (htree.shape.resolve_left fun hcontainer => ?_).1
        rw [helement] at hcontainer
        cases hcontainer.2
      rw [trace_of_bare helement, promise_of_childless (by rw [hkind]; rfl)] at hentry
      cases hentry
  | some element =>
      rw [trace_of_element helement] at hentry
      obtain ⟨opener, hopener, rfl⟩ := List.mem_map.mp hentry
      exact ⟨by rw [Tree.tag?, helement]; rfl, Option.mem_toList.mp hopener⟩

namespace Forest

theorem Shelters.mem_traces {body : Forest} {opener : Span} {tag : String}
    (hshelters : body.Shelters opener tag)
    (hbare : body.Obeys fun data _ => data.element = none) :
    ∃ line ∈ body, (isQuote line = true ∨ line.kind.isBlock = false) ∧
      (opener, tag) ∈ line.children.promises ∧ (opener, tag) ∈ line.children.traces := by
  obtain ⟨line, hline, hkind, inner, hinner, aggregate, haggregate, hblock, rfl, hopener⟩ :=
    hshelters
  have hneeds : aggregate.needsChildren = true := by
    cases aggregate with
    | line line => cases line <;> first | rfl | cases hblock
    | _ => rfl
  have hpromise : (opener, aggregate.tag) ∈ inner.data.promise := by
    rw [promise_of_aggregate haggregate hneeds, hopener]
    exact List.mem_singleton_self _
  have hmem := (mem_subtrees_of_mem hline).2 inner hinner
  have htrace := trace_of_bare (Tree.forestObeys_of_mem_subtrees hbare hmem).data
  exact ⟨line, hline, hkind, List.mem_flatMap.mpr ⟨inner, hinner, hpromise⟩,
    List.mem_flatMap.mpr ⟨inner, hinner, htrace.symm ▸ hpromise⟩⟩

end Forest

namespace Draft

variable {source : Source} {registries : Registries}

/-- From the pass for notes on, a page without warnings has what is reached in a paragraph. -/
theorem reaches_after_notes {draft final : Draft} (hsound : draft.body.Obeys (Sound liftedKinds))
    (hmute : draft.body.Obeys (Mute Html.headingTags)) (hraw : draft.body.Obeys Raw)
    (hquiet : RunsQuietly source registries (.notes :: afterNotes) draft final)
    {entry : Span × String} (hreaches : Reaches entry draft.body) :
    ∃ paragraph ∈ final.body.subtrees, paragraph.tag? = some "p" ∧
      entry ∈ paragraph.children.traces := by
  obtain ⟨hnotes, hlinks, hembeds, hfinal⟩ := quiet_after_notes hquiet
  have hreaches := hreaches.resolve draft.definitions hsound hraw hnotes
  have hsound := Note.sound_resolve draft.definitions hsound
  have hmute := Note.mute_resolve (by decide) draft.definitions hmute
  have hraw := Note.raw_resolve draft.definitions hraw
  have hreaches := hreaches.resolveExternals hsound hraw hlinks
  have hsound := Link.sound_resolveExternals hsound
  have hmute := hmute.mute_resolveExternals (by decide)
  have hraw := Link.raw_resolveExternals hraw
  have hreaches := hreaches.resolveAll hsound hraw hembeds
  have hsound := Embed.sound_resolveAll registries hsound
  have hmute := hmute.mute_resolveAll registries
  have hraw : Forest.Obeys Raw (Embed.resolveAll registries _).1 := Embed.raw_resolveAll hraw
  have hreaches := hreaches.descend descends_forestTrimHeadings rfl
  have hstable : Rule.Stable (Sound embeddedKinds) := .sound (by decide)
  have hsound := Tree.forestObeys_trimHeadings hstable.wears (fun hdata _ => hstable.fewer hdata)
    hsound
  have hmute := Tree.forestObeys_trimHeadings stable_mute.wears (fun hdata _ _ => hdata) hmute
  have hraw := Tree.forestObeys_trimHeadings stable_raw.wears (fun hdata _ => stable_raw.fewer hdata)
    hraw
  rw [hfinal]
  exact (hreaches.slugHeadings hsound).in_lowered (outlined_slugHeadings hsound hmute hraw)

/-- What is sheltered in the source of a page without warnings is in a paragraph. -/
theorem reaches_of_quiet {body : Forest} {final : Draft}
    (hbody : ofLexemes source.lexemes = .ok body)
    (hquiet : RunsQuietly source registries Pass.inOrder { body } final) {opener : Span}
    {tag : String} (hshelters : body.Shelters opener tag) :
    ∃ paragraph ∈ final.body.subtrees, paragraph.tag? = some "p" ∧
      (opener, tag) ∈ paragraph.children.traces := by
  rw [inOrder_eq_lift] at hquiet
  obtain ⟨lifted, hlift, hquiet⟩ := hquiet.split
  obtain ⟨arranged, harrange, hquiet⟩ := hquiet.split
  obtain ⟨hcheck, hlifted⟩ := lifted_of_quiet hbody hlift
  have hbuilt := built_ofLexemes hbody
  have hsound := (sound_of_lifted hbuilt hlift.outcome).1
  have hsubset : lifted.body ⊆ body := hlifted ▸ List.filter_sublist.subset
  have hmute : lifted.body.Obeys (Mute headingTags) := (mute_ofLexemes hbody).subset hsubset
  have hplain : lifted.body.Obeys fun data _ => data.kind ≠ .paragraph :=
    Tree.forestObeys_mono (fun _ _ hdata => hdata.ne_paragraph) (hbuilt.subset hsubset)
  have harranged := body_of_rearranging harrange.outcome
  obtain ⟨line, hline, hkind, hpromise, htrace⟩ := hshelters.mem_traces
    (Tree.forestObeys_mono (fun _ _ hdata => hdata.bare) hbuilt)
  -- Nothing is sheltered in a directive, so the line is still there.
  have hkept : line ∈ lifted.body := by
    rw [hlifted, List.mem_filter]
    refine ⟨hline, ?_⟩
    rw [Bool.not_eq_true']
    refine Bool.eq_false_iff.mpr fun hdirective => ?_
    have hnone := promises_below_directive (obeys_iff.mp hbuilt line hline)
      (obeys_iff.mp (checked_of_check hcheck) line hline) hdirective
    rw [hnone] at hpromise
    cases hpromise
  have hreaches : Reaches (opener, tag) arranged.body := by
    rw [harranged]
    rcases hkind with hquote | hblock
    · exact reaches_of_quote hkept hquote htrace
    · exact reaches_of_other hsound hkept hblock htrace
  refine reaches_after_notes ?_ ?_ ?_ hquiet hreaches <;> rw [harranged]
  · exact hsound.arranged (.sound (by decide))
  · exact hmute.mute_arranged
  · exact (hsound.raw hplain).arranged stable_raw

end Draft

/-- A block in a paragraph of a page is a heading or an embed that is written inside a style
or a quoted line. So paragraphs and quotes are in no paragraph, and on a page with no heading
and no embed inside a style or a quoted line there is no block in a paragraph. If there is no
warning, every heading and embed that is written there is in a paragraph. -/
theorem Source.compile_paragraphs {source : Source} {registries : Registries}
    {document : Document} (hcompile : (source.compile registries).2 = .ok document) :
    ∃ body, ofLexemes source.lexemes = .ok body ∧
      (∀ paragraph ∈ document.body.subtrees, paragraph.tag? = some "p" →
        ∀ below ∈ paragraph.children.subtrees, ∀ tag ∈ blockTags, below.tag? = some tag →
          tag ≠ "p" ∧ tag ≠ quoteTag ∧
            ∃ opener, below.data.opener = some opener ∧ body.Shelters opener tag) ∧
      ((∀ line ∈ body, isQuote line = true ∨ line.kind.isBlock = false →
          ∀ inner ∈ line.children.subtrees, inner.kind.isBlock = false) →
        ∀ paragraph ∈ document.body.subtrees, paragraph.tag? = some "p" →
          ∀ below ∈ paragraph.children.subtrees, ∀ tag ∈ blockTags, below.tag? ≠ some tag) ∧
      ((∀ happening ∈ (source.compile registries).1, happening.isQuiet = true) →
        ∀ opener tag, body.Shelters opener tag →
          ∃ paragraph ∈ document.body.subtrees, paragraph.tag? = some "p" ∧
            ∃ below ∈ paragraph.children.subtrees,
              below.tag? = some tag ∧ below.data.opener = some opener) := by
  obtain ⟨body, final, hbody, hrun, hfinish, hhappenings⟩ := compile_eq_ok hcompile
  obtain ⟨presented, hpresentedBody, hcheck, -, hpresented⟩ := compile_presents hcompile
  obtain rfl : body = presented := Except.ok.inj (hbody.symm.trans hpresentedBody)
  have hshown : document.body.ParagraphsHold body.Shelters := by
    rw [← (Prod.mk.inj hpresented).1]
    exact ((paragraphsHold_lifted hbody hcheck).resolved registries _).slugHeadings.lower
  have hheld : ∀ paragraph ∈ document.body.subtrees, paragraph.tag? = some "p" →
      ∀ below ∈ paragraph.children.subtrees, ∀ tag ∈ blockTags, below.tag? = some tag →
        ∃ opener, below.data.opener = some opener ∧ body.Shelters opener tag := by
    intro paragraph hparagraph hp below hbelow tag hmem htag
    have hinside := hshown paragraph hparagraph (hasTag_of_tag? hp)
    exact (Tree.forestObeys_of_mem_subtrees hinside hbelow).data tag hmem (hasTag_of_tag? htag)
  refine ⟨body, hbody, ?_, ?_, ?_⟩
  · intro paragraph hparagraph hp below hbelow tag hmem htag
    obtain ⟨opener, hopener, hshelters⟩ := hheld paragraph hparagraph hp below hbelow tag hmem htag
    obtain ⟨hnotParagraph, hnotQuote⟩ := hshelters.tag_ne hcheck
    exact ⟨hnotParagraph, hnotQuote, opener, hopener, hshelters⟩
  · intro hplain paragraph hparagraph hp below hbelow tag hmem htag
    obtain ⟨opener, -, line, hline, hkind, inner, hinner, aggregate, haggregate, hblock, -⟩ :=
      hheld paragraph hparagraph hp below hbelow tag hmem htag
    have hnone := hplain line hline hkind inner hinner
    rw [haggregate] at hnone
    rw [show aggregate.isBlock = false from hnone] at hblock
    cases hblock
  · intro hsilent opener tag hshelters
    have hquiet : Draft.RunsQuietly source registries Pass.inOrder { body } final := by
      refine ⟨hrun, fun happening hmem => hsilent happening ?_⟩
      rw [hhappenings]
      exact List.mem_append_left _ (List.mem_cons_of_mem _ hmem)
    obtain ⟨paragraph, hparagraph, hp, htrace⟩ := Draft.reaches_of_quiet hbody hquiet hshelters
    rw [← (Draft.finish_eq_ok hfinish).2.1] at hparagraph
    obtain ⟨below, hbelow, hentry⟩ := List.mem_flatMap.mp htrace
    have hmem := Tree.forestSubtrees_children_subset hparagraph hbelow
    have hsound := (sound_lifted hbody hcheck).arranged (.sound (by decide))
    have hfinished : document.body.Obeys Finished := by
      rw [← (Prod.mk.inj hpresented).1]
      exact (hsound.sound_resolved registries _).slugHeadings.lower
    obtain ⟨htag, hopener⟩ := (Tree.forestObeys_of_mem_subtrees hfinished hmem).data.tag?_of_trace
      hentry
    exact ⟨paragraph, hparagraph, hp, below, hbelow, htag, hopener⟩

/-- Whether a paragraph of the page has a block with the tag in it. -/
def Document.holdsInParagraph (document : Document) (tag : String) : Bool :=
  document.body.subtrees.any fun paragraph => paragraph.tag? == some "p" &&
    paragraph.children.subtrees.any fun below => below.tag? == some tag

theorem Document.holdsInParagraph_iff {document : Document} {tag : String} :
    document.holdsInParagraph tag = true ↔ ∃ paragraph ∈ document.body.subtrees,
      paragraph.tag? = some "p" ∧ ∃ below ∈ paragraph.children.subtrees, below.tag? = some tag := by
  simp [holdsInParagraph]

/-- A page with a heading in an emphasis, a heading and an embed beside paragraphs, and quotes. -/
def Document.paragraphsExample : Source := .ofText "!title T
*==a==* b
==c==
> d *e*
[[[m]]]
f"

theorem Source.compile_paragraphs_nested :
    ∃ document body, (Document.paragraphsExample.compile shownRegistries).2 = .ok document ∧
      ofLexemes Document.paragraphsExample.lexemes = .ok body ∧
      document.holdsInParagraph "h2" = true ∧ document.holdsInParagraph "figure" = false ∧
      ∃ opener, body.Shelters opener "h2" := by
  have hholds : (Document.paragraphsExample.compile shownRegistries).2.toOption.map
      (fun document => (document.holdsInParagraph "h2", document.holdsInParagraph "figure")) =
        some (true, false) := by
    decide +kernel
  cases hcompile : (Document.paragraphsExample.compile shownRegistries).2 with
  | error fault =>
      rw [hcompile] at hholds
      cases hholds
  | ok document =>
      rw [hcompile] at hholds
      obtain ⟨hheading, hfigure⟩ := Prod.mk.inj (Option.some.inj hholds)
      obtain ⟨body, hbody, hheld, -⟩ := compile_paragraphs hcompile
      obtain ⟨paragraph, hparagraph, hp, below, hbelow, htag⟩ :=
        Document.holdsInParagraph_iff.mp hheading
      obtain ⟨-, -, opener, -, hshelters⟩ :=
        hheld paragraph hparagraph hp below hbelow "h2" (by decide) htag
      exact ⟨document, body, rfl, hbody, hheading, hfigure, opener, hshelters⟩

/-- A page with a heading in a quoted line. -/
def Document.quotedHeadingExample : Source := .ofText "!title T\n>==a=="

/-- The heading is in the paragraph of the line. -/
theorem Source.compile_quoted_heading :
    ∃ document, (Document.quotedHeadingExample.compile Registries.empty).2 = .ok document ∧
      document.html = "<blockquote><p><h2 id=\"a\">a</h2></p></blockquote>" ∧
      ∃ paragraph ∈ document.body.subtrees, paragraph.tag? = some "p" ∧
        ∃ below ∈ paragraph.children.subtrees, below.tag? = some "h2" := by
  have hholds : (Document.quotedHeadingExample.compile Registries.empty).2.toOption.map
      (fun document => (document.html, document.holdsInParagraph "h2")) =
        some ("<blockquote><p><h2 id=\"a\">a</h2></p></blockquote>", true) := by
    decide +kernel
  cases hcompile : (Document.quotedHeadingExample.compile Registries.empty).2 with
  | error fault =>
      rw [hcompile] at hholds
      cases hholds
  | ok document =>
      rw [hcompile] at hholds
      obtain ⟨hhtml, hheading⟩ := Prod.mk.inj (Option.some.inj hholds)
      exact ⟨document, rfl, hhtml, Document.holdsInParagraph_iff.mp hheading⟩

end PageMarkup
