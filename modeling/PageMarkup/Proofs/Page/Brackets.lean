import PageMarkup.Proofs.Page.Hollows
import PageMarkup.Proofs.Page.Mute
import PageMarkup.Proofs.Tree.Origins

/-! # Brackets on their way

A bracket holds nothing but leaves, so no pass has any work to do inside it: as long as it is
there, it is the very tree that was nested, whatever is around it. And the passes before that
for notes neither lose a reference nor change the order of the references, but for the empty
ones that are pruned.
-/

namespace PageMarkup

open Node Forest

theorem Tree.node_of_children {tree : Tree} {children : Forest} (hsame : tree.children = children) :
    .node tree.data children = tree := by
  subst hsame
  cases tree
  rfl

namespace Forest

/-- Every bracket of the forest is a subtree of the page, with all that is in it. -/
def BracketsOf (page forest : Forest) : Prop :=
  ∀ tree ∈ forest.subtrees, ∀ bracket, tree.kind = .aggregate (.bracket bracket) →
    tree ∈ page.subtrees

variable {page forest : Forest}

theorem bracketsOf_append {first second : Forest} :
    BracketsOf page (first ++ second) ↔ BracketsOf page first ∧ BracketsOf page second := by
  simp [BracketsOf, or_imp, forall_and]

theorem BracketsOf.subset {kept : Forest} (hforest : BracketsOf page forest)
    (hkept : kept ⊆ forest) : BracketsOf page kept :=
  fun tree hmem => hforest tree (subtrees_subset hkept hmem)

/-- A forest of a kind of nodes that are no brackets. -/
theorem bracketsOf_of_none (hnone : ∀ tree ∈ forest.subtrees, ∀ bracket,
    tree.kind ≠ .aggregate (.bracket bracket)) : BracketsOf page forest :=
  fun tree hmem bracket hkind => absurd hkind (hnone tree hmem bracket)

theorem not_bracket_of_isTextLeaf {tree : Tree} (hleaf : tree.isTextLeaf = true)
    (bracket : Bracket) : tree.kind ≠ .aggregate (.bracket bracket) := by
  intro hkind
  rcases isText_of_isTextLeaf hleaf with htext | hready
  · rw [hkind] at htext; cases htext
  · rw [hkind] at hready; cases hready

/-! ## Pruning and arranging -/

theorem bracketsOf_pruneEmpty {source : Source} (hbuilt : page.Obeys (Built source))
    (hchecked : page.Obeys Checked) : BracketsOf page page.pruneEmpty.1 := by
  intro tree hmem bracket hkind
  obtain ⟨children, hnode, hfrom⟩ := Tree.origin_forestPruneEmpty hmem
  have hflat := (Tree.forestObeys_of_mem_subtrees hchecked hnode).data.flat
  have hleaves := (Tree.forestObeys_of_mem_subtrees hbuilt hnode).children
  have hsame : tree.children = children := by
    refine hfrom.trans (Directive.forestPruneEmpty_of_leaves hleaves (hflat ?_))
    rw [Tree.data_node, show tree.data.kind = _ from hkind]
    rfl
  exact Tree.node_of_children hsame ▸ hnode

/-- Arranging makes quotes and paragraphs and trims texts. -/
theorem mem_subtrees_arranged {tree : Tree} (hmem : tree ∈ forest.arranged.subtrees) :
    tree ∈ forest.subtrees ∨ tree.kind = .paragraph ∨
      tree.kind = .aggregate (.line .blockquote) ∨ tree.isTextLeaf = true := by
  have hquoted : ∀ {top below : Tree}, top ∈ forest.mergeQuotes.trimNewlines →
      below ∈ top.subtrees → below ∈ forest.subtrees ∨ below.kind = .paragraph ∨
        below.kind = .aggregate (.line .blockquote) ∨ below.isTextLeaf = true := by
    intro top below htop hbelow
    rcases mem_mergeQuotes (trimNewlines_subset _ htop) with ⟨htop, -⟩ | ⟨hquote, hlines⟩
    · exact .inl (mem_subtrees.mpr ⟨top, htop, hbelow⟩)
    · rcases Tree.mem_subtrees_iff.mp hbelow with rfl | hbelow
      · exact .inr (.inr (.inl (beq_iff_eq.mp hquote)))
      · obtain ⟨child, hchild, hbelow⟩ := mem_subtrees.mp hbelow
        obtain ⟨line, hline, -, hfrom⟩ := hlines child hchild
        obtain ⟨hkind, hchildren⟩ := mem_quotedParagraph hfrom
        rcases Tree.mem_subtrees_iff.mp hbelow with rfl | hbelow
        · exact .inr (.inl hkind)
        · rw [hchildren] at hbelow
          rcases mem_subtrees_trimEdges hbelow with hbelow | hleaf
          · have hself : line ∈ forest.subtrees :=
              mem_subtrees.mpr ⟨line, hline, Tree.mem_subtrees_iff.mpr (.inl rfl)⟩
            exact .inl (Tree.forestSubtrees_children_subset hself hbelow)
          · exact .inr (.inr (.inr hleaf))
  obtain ⟨top, htop, hmem⟩ := mem_subtrees.mp hmem
  rcases mem_paragraphs htop with ⟨htop, -⟩ | ⟨run, htop, hrun⟩
  · exact hquoted htop hmem
  · obtain ⟨hkind, hchildren⟩ := mem_paragraphOf htop
    rcases Tree.mem_subtrees_iff.mp hmem with rfl | hmem
    · exact .inr (.inl hkind)
    · rw [hchildren] at hmem
      rcases mem_subtrees_trimEdges hmem with hmem | hleaf
      · obtain ⟨inner, hinner, hmem⟩ := mem_subtrees.mp hmem
        exact hquoted (hrun inner hinner).1 hmem
      · exact .inr (.inr (.inr hleaf))

theorem BracketsOf.arranged (hforest : BracketsOf page forest) :
    BracketsOf page forest.arranged := by
  intro tree hmem bracket hkind
  rcases mem_subtrees_arranged hmem with hmem | hother | hother | hleaf
  · exact hforest tree hmem bracket hkind
  · rw [hkind] at hother; cases hother
  · rw [hkind] at hother; cases hother
  · exact absurd hkind (not_bracket_of_isTextLeaf hleaf bracket)

/-! ## Notes, links and embeds -/

variable {gone : List Kind}

theorem flat_of_bracket {tree : Tree} {bracket : Bracket}
    (hkind : tree.kind = .aggregate (.bracket bracket)) : tree.kind.flat = true := by
  rw [hkind]
  rfl

/-- Nothing that goes when it is empty can be taken out of a bracket. -/
theorem not_removesFirst_of_bracket {p : Tree → Bool}
    (hp : ∀ tree, p tree = true → tree.kind.goesWhenEmpty = true) {tree target : Tree}
    (htree : tree.Obeys (Sound gone)) {bracket : Bracket}
    (hkind : tree.kind = .aggregate (.bracket bracket)) {removal : Removal} :
    ¬RemovesFirst p target tree.children removal := by
  intro hremoves
  obtain ⟨hmem, htarget⟩ := mem_matching.mp hremoves.target_mem
  obtain ⟨child, hchild, hmem⟩ := mem_subtrees.mp hmem
  obtain ⟨hleaf, hcan⟩ := Tree.leaves_of_flat htree (flat_of_bracket hkind) child hchild
  rw [Tree.mem_subtrees_iff, hleaf, subtrees_nil] at hmem
  rcases hmem with rfl | hmem
  · have hgoes := hp target htarget
    rw [Kind.goesWhenEmpty_eq_false hcan] at hgoes
    cases hgoes
  · cases hmem

theorem BracketsOf.removeWhere {p : Tree → Bool}
    (hp : ∀ tree, p tree = true → tree.kind.goesWhenEmpty = true) (hparagraph : .paragraph ∉ gone)
    (hsound : forest.Obeys (Sound gone)) (hforest : BracketsOf page forest) :
    BracketsOf page (forest.removeWhere p).1 := by
  refine (removeWhere_invariant (P := fun forest =>
    forest.Obeys (Sound gone) ∧ BracketsOf page forest) ?_ ⟨hsound, hforest⟩).2
  rintro target forest removal hremoves ⟨hsound, hforest⟩
  refine ⟨hremoves.obeys (Rule.Stable.sound hparagraph).wears hp hsound, ?_⟩
  intro tree hmem bracket hkind
  rcases hremoves.origin hmem with hmem | hleaf | ⟨children, inner, hmem, hinner, -⟩
  · exact hforest tree hmem bracket hkind
  · exact absurd hkind (not_bracket_of_isTextLeaf hleaf bracket)
  · exact absurd hinner
      (not_removesFirst_of_bracket hp (Tree.forestObeys_of_mem_subtrees hsound hmem) hkind)

theorem BracketsOf.dropUndefined (names : List String) (hparagraph : .paragraph ∉ gone)
    (hsound : forest.Obeys (Sound gone)) (hforest : BracketsOf page forest) :
    BracketsOf page (Note.dropUndefined names forest).1 := by
  induction names generalizing forest with
  | nil => exact hforest
  | cons name names ih =>
      have hp : ∀ tree : Tree, tree.refersTo name = true → tree.kind.goesWhenEmpty = true :=
        fun _ => Tree.goesWhenEmpty_of_refersTo
      exact ih (hsound.removeWhere (Rule.Stable.sound hparagraph).wears hp)
        (hforest.removeWhere hp hparagraph hsound)

/-- Rewriting references leaves leaves alone. -/
theorem forestRewriteNoteRefs_of_leaves {notes : List Note} (seen : List String)
    (hleaves : ∀ tree ∈ forest, tree.children = [] ∧ tree.kind.canHaveChildren = false) :
    (Tree.forestRewriteNoteRefs notes seen forest).1 = forest := by
  induction forest generalizing seen with
  | nil => rfl
  | cons tree rest ih =>
      obtain ⟨⟨hchildren, hkind⟩, hrest⟩ := List.forall_mem_cons.mp hleaves
      obtain ⟨data, children⟩ := tree
      obtain rfl : children = [] := hchildren
      have hnot : (Tree.node data []).isNoteRef = false := by
        rw [Tree.isNoteRef, beq_eq_false_iff_ne]
        intro href
        rw [href] at hkind
        cases hkind
      rw [Tree.forestRewriteNoteRefs, Tree.rewriteNoteRefs]
      simp only [hnot, Bool.false_eq_true, if_false]
      rw [ih _ hrest]
      rfl

theorem BracketsOf.rewriteNoteRefs {notes : List Note} (seen : List String)
    (hsound : forest.Obeys (Sound gone)) (hforest : BracketsOf page forest) :
    BracketsOf page (Tree.forestRewriteNoteRefs notes seen forest).1 := by
  intro tree hmem bracket hkind
  rcases Tree.origin_forestRewriteNoteRefs hmem with
    hmem | ⟨reference, -, -, note, index, hmem⟩ | ⟨children, earlier, hmem, -, hfrom⟩
  · exact hforest tree hmem bracket hkind
  · have hplace : (note.referenceTree index reference.data).Obeys (Sound embeddedKinds) :=
      Note.sound_referenceTree (by decide) (by decide) note index reference.data
    refine absurd (hplace.of_mem_subtrees hmem).data.present ?_
    rw [show tree.data.kind = _ from hkind, not_not]
    cases bracket <;> decide
  · have hnode := Tree.forestObeys_of_mem_subtrees hsound hmem
    have hsame : tree.children = children :=
      hfrom.trans (forestRewriteNoteRefs_of_leaves earlier
        (Tree.leaves_of_flat hnode (flat_of_bracket hkind)))
    exact hforest tree (Tree.node_of_children hsame ▸ hmem) bracket hkind

theorem bracketsOf_sectionOf (notes : List Note) : BracketsOf page (Note.sectionOf notes) := by
  refine bracketsOf_of_none fun tree hmem bracket hkind => ?_
  have hpresent := (Tree.forestObeys_of_mem_subtrees (Note.sound_sectionOf notes) hmem).data.present
  rw [show tree.data.kind = _ from hkind] at hpresent
  exact hpresent (by cases bracket <;> decide)

theorem BracketsOf.resolve (definitions : List Directive)
    (hsound : forest.Obeys (Sound liftedKinds)) (hforest : BracketsOf page forest) :
    BracketsOf page (Note.resolve definitions forest).1 := by
  have hkept : BracketsOf page (Note.withoutUndefined definitions forest).1 :=
    hforest.dropUndefined _ (by decide) hsound
  have hkeptSound : (Note.withoutUndefined definitions forest).1.Obeys (Sound liftedKinds) :=
    Note.obeys_dropUndefined (Rule.Stable.sound (by decide)).wears _ hsound
  rw [Note.resolve_eq]
  dsimp only
  split
  next => exact hkept
  next =>
    exact bracketsOf_append.mpr ⟨hkept.rewriteNoteRefs [] hkeptSound, bracketsOf_sectionOf _⟩

/-- What takes the place of links are leaves, and other brackets stay as they are. -/
theorem BracketsOf.resolveExternals (hsound : forest.Obeys (Sound gone))
    (hforest : BracketsOf page forest) : BracketsOf page (Link.resolveExternals forest).1 := by
  intro tree hmem bracket hkind
  rcases Tree.origin_forestExpand hmem with
    ⟨replaced, -, answer, hanswer, hmem⟩ | ⟨children, hmem, -, hfrom⟩
  · cases (Link.answers_of_resolveExternal? hanswer).2 with
    | removed => simp at hmem
    | leaf =>
        dsimp only at hmem
        rw [mem_subtrees_cons] at hmem
        simp only [Tree.leaf, Tree.children_node, subtrees_nil, List.not_mem_nil, or_false] at hmem
        rw [hmem] at hkind
        cases hkind
  · have hnode := Tree.forestObeys_of_mem_subtrees hsound hmem
    have hleaves := Tree.leaves_of_flat hnode (flat_of_bracket hkind)
    have hsame : tree.children = children := hfrom.trans <|
      Tree.forestExpand_of_leaves fun child hchild =>
        ⟨(hleaves child hchild).1, Tree.resolveExternal?_of_childless (hleaves child hchild).2⟩
    exact hforest tree (Tree.node_of_children hsame ▸ hmem) bracket hkind

/-! ## References -/

theorem references_append (first second : Forest) :
    (first ++ second).references = first.references ++ second.references :=
  matching_append first second

/-- The references of a tree are itself, if it is one, and those below it. -/
theorem references_node (data : Node) (children : Forest) :
    references [.node data children] =
      (if (Tree.node data children).isNoteRef then [Tree.node data children] else []) ++
        children.references := by
  rw [references, matching_cons, matching_nil, List.append_nil]
  rfl

theorem references_of_leaves (hleaves : ∀ tree ∈ forest,
    tree.children = [] ∧ tree.kind.canHaveChildren = false) : forest.references = [] := by
  refine List.filter_eq_nil_iff.mpr fun tree hmem href => ?_
  obtain ⟨top, htop, hmem⟩ := mem_subtrees.mp hmem
  obtain ⟨hchildren, hkind⟩ := hleaves top htop
  rw [Tree.mem_subtrees_iff, hchildren, subtrees_nil] at hmem
  rcases hmem with rfl | hmem
  · rw [show tree.kind = _ from beq_iff_eq.mp href] at hkind
    cases hkind
  · cases hmem

end Forest

namespace Tree

variable {source : Source}

mutual

theorem references_pruneEmpty {tree : Tree} (hbuilt : tree.Obeys (Built source))
    (hchecked : tree.Obeys Checked) :
    Forest.references tree.pruneEmpty.1 = (Forest.references [tree]).filter (!·.isLeaf) := by
  obtain ⟨data, children⟩ := tree
  have hbelow := references_forestPruneEmpty hbuilt.children hchecked.children
  rw [children_node] at hbelow
  rw [references_node, pruneEmpty]
  dsimp only
  cases href : (node data children).isNoteRef with
  | true =>
      have hkind : data.kind = .aggregate (.bracket .noteRef) := beq_iff_eq.mp href
      have hflat := hchecked.data.flat (by rw [data_node, hkind]; rfl)
      have hsame : (forestPruneEmpty children).1 = children :=
        Directive.forestPruneEmpty_of_leaves hbuilt.children hflat
      have hnone : Forest.references children = [] := references_of_leaves fun child hmem =>
        have hcan := hflat child.kind (List.mem_map_of_mem hmem)
        have hchild := (obeys_iff.mp hbuilt.children child hmem).data
        ⟨List.map_eq_nil_iff.mp (hchild.childless hcan), hcan⟩
      have hneeds : data.kind.needsChildren = true := by rw [hkind]; rfl
      rw [hsame, hnone]
      cases children with
      | nil => simp [hneeds, isLeaf]
      | cons child rest =>
          rw [List.isEmpty_cons, if_neg (by simp), references_node, href, hnone]
          rfl
  | false =>
      rw [if_neg Bool.false_ne_true, List.nil_append, ← hbelow]
      split
      next hgone => rw [List.isEmpty_iff.mp hgone.2]
      next =>
        have hnot : (node data (forestPruneEmpty children).1).isNoteRef = false := href
        rw [references_node, hnot, if_neg Bool.false_ne_true, List.nil_append]

/-- Pruning takes out the references that hold nothing. -/
theorem references_forestPruneEmpty {forest : Forest} (hbuilt : forest.Obeys (Built source))
    (hchecked : forest.Obeys Checked) :
    Forest.references (forestPruneEmpty forest).1 = forest.references.filter (!·.isLeaf) := by
  cases forest with
  | nil => simp [forestPruneEmpty]
  | cons tree rest =>
      obtain ⟨htree, hrest⟩ := obeys_cons.mp hbuilt
      obtain ⟨htree', hrest'⟩ := obeys_cons.mp hchecked
      have hfirst := references_pruneEmpty htree htree'
      have hothers := references_forestPruneEmpty hrest hrest'
      rw [← List.singleton_append, references_append, List.filter_append, ← hfirst, ← hothers]
      exact references_append _ _

end

end Tree

namespace Forest

/-- What a reference gives to the census of references: itself. -/
def referred (tree : Tree) : Forest := if tree.isNoteRef then [tree] else []

theorem census_referred (forest : Forest) : census referred forest = forest.references := by
  rw [census, references, matching]
  induction forest.subtrees with
  | nil => rfl
  | cons tree rest ih =>
      rw [List.flatMap_cons, List.filter_cons, ih, referred]
      split <;> rfl

theorem referred_of_ne {tree : Tree} (hkind : tree.kind ≠ .aggregate (.bracket .noteRef)) :
    referred tree = [] :=
  if_neg fun href => hkind (beq_iff_eq.mp href)

theorem referred_of_isTextLeaf {tree : Tree} (hleaf : tree.isTextLeaf = true) :
    referred tree = [] := referred_of_ne (not_bracket_of_isTextLeaf hleaf .noteRef)

/-- Arranging keeps the references and their order. -/
theorem references_arranged {forest : Forest} (hforest : forest.Obeys (Sound liftedKinds)) :
    forest.arranged.references = forest.references := by
  have htrims : Trims referred := .of_textLeaf fun _ => referred_of_isTextLeaf
  have hparagraph : ∀ span (children : Forest),
      referred (.node { kind := .paragraph, span } children) = [] := fun _ _ => rfl
  have hquote : ∀ data kinds span (children : Forest), Sound liftedKinds data kinds →
      data.kind = .aggregate (.line .blockquote) →
      referred (.node { data with span } children) = [] := by
    intro data kinds span children _ hkind
    exact referred_of_ne (by rw [Tree.kind_node, hkind]; nofun)
  have hrule : Rule.Stable (Sound liftedKinds) := .sound (by decide)
  -- Newlines and blank texts are leaves.
  have hnothing : ∀ {forest : Forest}, forest.Obeys (Sound liftedKinds) → ∀ tree ∈ forest,
      (isNewline tree || isBlankText tree) = true → census referred [tree] = [] := by
    intro forest hforest tree hmem hblank
    have hkind : tree.kind = .newline ∨ tree.kind = .text := by
      simp only [isNewline, isBlankText, Bool.or_eq_true, Bool.and_eq_true, beq_iff_eq] at hblank
      exact hblank.imp_right And.left
    have hcan : tree.kind.canHaveChildren = false := by
      rcases hkind with hkind | hkind <;> rw [hkind] <;> rfl
    have hchildren := (obeys_iff.mp hforest tree hmem).data.childless hcan
    rw [census_referred]
    exact references_of_leaves <| List.forall_mem_singleton.mpr
      ⟨List.map_eq_nil_iff.mp hchildren, hcan⟩
  have hquoted := hforest.mergeQuotes hrule
  have htrimmed := hquoted.trimNewlines
  rw [arranged, ← census_referred, ← census_referred,
    census_paragraphs htrims hparagraph (hnothing htrimmed),
    census_trimNewlines fun tree hmem hnewline => hnothing hquoted tree hmem (by
      rw [hnewline, Bool.true_or]),
    census_mergeQuotes htrims hparagraph hquote hrule hforest]

/-- The references that the pass for notes finds are those of the page that hold something, in
order. -/
theorem references_before_notes {source : Source} {page : Forest}
    (hpage : ofLexemes source.lexemes = .ok page) (hcheck : page.check = .ok ()) :
    (Directive.body source page.pruneEmpty.1).arranged.references =
      page.references.filter (!·.isLeaf) := by
  have hbuilt := built_ofLexemes hpage
  have hchecked := checked_of_check hcheck
  -- A directive holds leaves only.
  have hlift : (Directive.body source page.pruneEmpty.1).references =
      page.pruneEmpty.1.references := by
    rw [← census_referred, ← census_referred]
    refine census_filter fun tree hmem hlifted => ?_
    have hkind : tree.kind = .aggregate (.line .directive) := by
      by_contra hkind
      rw [Directive.ofTree?, if_neg hkind] at hlifted
      cases hlifted
    have htree := obeys_iff.mp hbuilt.built_pruneEmpty tree hmem
    have hflat := (obeys_iff.mp hchecked.checked_pruneEmpty tree hmem).data.flat
      (by rw [show tree.data.kind = _ from hkind]; rfl)
    obtain ⟨data, children⟩ := tree
    rw [census_referred, references_node, ← referred, referred_of_ne (by rw [hkind]; decide),
      List.nil_append]
    refine references_of_leaves fun child hchild => ?_
    have hcan := hflat child.kind (List.mem_map_of_mem hchild)
    have hleaf := (obeys_iff.mp htree.children child hchild).data.childless hcan
    exact ⟨List.map_eq_nil_iff.mp hleaf, hcan⟩
  rw [references_arranged (sound_lifted hpage hcheck), hlift, pruneEmpty,
    Tree.references_forestPruneEmpty hbuilt hchecked]

end Forest

end PageMarkup
