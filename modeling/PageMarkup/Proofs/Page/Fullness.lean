import PageMarkup.Proofs.Page.Finish
import PageMarkup.Proofs.Text.Trimming

/-! # Nodes that hold something

Pruning leaves no node empty that must have children, and the passes that follow it up to
that for notes keep it so. Quotes and paragraphs are made only of what has content, and a
removal climbs until something is left. The notes add containers around leaves that are
ready.
-/

namespace PageMarkup

open Node Forest

/-- A node that goes when it is empty is not empty. -/
def Node.Full : Rule := fun data kinds => data.kind.goesWhenEmpty = true → kinds ≠ []

/-- A container holds something, and nothing but containers and what is ready. -/
def Node.Encloses : Rule := fun data kinds =>
  data.kind = .container → kinds ≠ [] ∧ ∀ kind ∈ kinds, kind = .container ∨ kind = .ready

namespace Node

theorem wears_full : Rule.Wears Full where
  text _ _ hdata := hdata
  loss _ _ _ hleft := hleft

theorem wears_encloses : Rule.Wears Encloses where
  text _ _ hdata := hdata
  loss := by
    rintro data kinds others hdata ⟨kind, hmem, hgoes⟩ - - hcontainer
    -- A container has no child that goes.
    rcases (hdata hcontainer).2 kind hmem with rfl | rfl <;> cases hgoes

theorem encloses_of_ne {data : Node} (hkind : data.kind ≠ .container) (kinds : List Kind) :
    Encloses data kinds := fun hcontainer => absurd hcontainer hkind

theorem full_of_container {data : Node} (hkind : data.kind = .container) (kinds : List Kind) :
    Full data kinds := by
  intro hgoes
  rw [hkind] at hgoes
  cases hgoes

end Node

/-! ## Pruning -/

namespace Tree

mutual

theorem full_pruneEmpty {tree : Tree} (htree : tree.Obeys fun data _ => data.kind ≠ .paragraph) :
    Forest.Obeys Full tree.pruneEmpty.1 := by
  obtain ⟨data, children⟩ := tree
  have hchildren := full_forestPruneEmpty htree.children
  rw [pruneEmpty]
  dsimp only
  split
  next => exact obeys_nil
  next hkept =>
    refine obeys_cons.mpr ⟨obeys_node.mpr ⟨fun hgoes hnil => hkept ?_, hchildren⟩, obeys_nil⟩
    rw [Kind.goesWhenEmpty, Bool.or_eq_true, beq_iff_eq] at hgoes
    exact ⟨hgoes.resolve_left htree.data, List.isEmpty_iff.mpr (List.map_eq_nil_iff.mp hnil)⟩

/-- Pruning leaves nothing empty where there are no paragraphs yet. -/
theorem full_forestPruneEmpty {forest : Forest}
    (hforest : forest.Obeys fun data _ => data.kind ≠ .paragraph) :
    Forest.Obeys Full (forestPruneEmpty forest).1 := by
  cases forest with
  | nil => exact obeys_nil
  | cons tree rest =>
      obtain ⟨htree, hrest⟩ := obeys_cons.mp hforest
      exact obeys_append.mpr ⟨full_pruneEmpty htree, full_forestPruneEmpty hrest⟩

end

end Tree

namespace Forest

/-! ## Quotes -/

theorem full_quotedParagraph {line : Tree} (hline : line.children.Obeys Full) :
    (quotedParagraph line).Obeys Full := by
  unfold quotedParagraph
  dsimp only
  split
  next => exact obeys_nil
  next hsome =>
    rw [List.isEmpty_iff] at hsome
    refine obeys_cons.mpr ⟨Tree.obeys_node.mpr ⟨fun _ hnil => hsome ?_, ?_⟩, obeys_nil⟩
    · exact List.map_eq_nil_iff.mp hnil
    · exact hline.trimEdges wears_full

/-- Everything below the tree is full, and so is the tree unless it is a quote. -/
def FullButQuotes (tree : Tree) : Prop :=
  tree.children.Obeys Full ∧ (isQuote tree = false → tree.Obeys Full)

theorem fullButQuotes_prependQuote {line : Tree} (hquote : isQuote line = true)
    (hline : line.children.Obeys Full) {forest : Forest}
    (hforest : ∀ tree ∈ forest, FullButQuotes tree) :
    ∀ tree ∈ prependQuote line forest, FullButQuotes tree := by
  have hparagraph := full_quotedParagraph hline
  have hquoted : ∀ (span : Span) (children : Forest), children.Obeys Full →
      FullButQuotes (.node { line.data with span } children) := by
    intro span children hchildren
    refine ⟨hchildren, fun hnot => ?_⟩
    rw [show isQuote (.node { line.data with span } children) = isQuote line from rfl,
      hquote] at hnot
    cases hnot
  cases forest with
  | nil => exact List.forall_mem_cons.mpr ⟨hquoted _ _ hparagraph, nofun⟩
  | cons next rest =>
      obtain ⟨hnext, hrest⟩ := List.forall_mem_cons.mp hforest
      rw [prependQuote]
      split
      next =>
        exact List.forall_mem_cons.mpr
          ⟨hquoted _ _ (obeys_append.mpr ⟨hparagraph, hnext.1⟩), hrest⟩
      next => exact List.forall_mem_cons.mpr ⟨hquoted _ _ hparagraph, hforest⟩

theorem fullButQuotes_joinQuotes {forest : Forest} (hforest : forest.Obeys Full) :
    ∀ tree ∈ joinQuotes forest, FullButQuotes tree := by
  induction forest with
  | nil => nofun
  | cons tree rest ih =>
      obtain ⟨htree, hrest⟩ := obeys_cons.mp hforest
      rw [joinQuotes]
      split
      next hquote => exact fullButQuotes_prependQuote hquote htree.children (ih hrest)
      next => exact List.forall_mem_cons.mpr ⟨⟨htree.children, fun _ => htree⟩, ih hrest⟩

/-- Merging drops the quotes that are empty. -/
theorem full_mergeQuotes {forest : Forest} (hforest : forest.Obeys Full) :
    forest.mergeQuotes.Obeys Full := by
  refine obeys_iff.mpr fun tree hmem => ?_
  obtain ⟨hjoined, hkept⟩ := List.mem_filter.mp hmem
  obtain ⟨hchildren, hother⟩ := fullButQuotes_joinQuotes hforest tree hjoined
  cases hquote : isQuote tree with
  | false => exact hother hquote
  | true =>
      rw [hquote, Bool.true_and, Bool.not_eq_true'] at hkept
      obtain ⟨data, children⟩ := tree
      refine Tree.obeys_node.mpr ⟨fun _ hnil => ?_, hchildren⟩
      rw [Tree.isLeaf, Tree.children_node, List.map_eq_nil_iff.mp hnil] at hkept
      cases hkept

/-! ## Paragraphs -/

/-- Whether trimming drops the tree at the edge of a line. -/
def isBlankLeaf (tree : Tree) : Bool := tree.isTextLeaf && Text.isBlankText tree.data.text

theorem exists_trimFront {trimText : String → String}
    (htrim : ∀ text, Text.isBlankText (trimText text) = Text.isBlankText text) {forest : Forest}
    (hsome : ∃ tree ∈ forest, isBlankLeaf tree = false) :
    ∃ tree ∈ trimFront trimText forest, isBlankLeaf tree = false := by
  induction forest with
  | nil => exact hsome
  | cons tree rest ih =>
      rw [trimFront]
      split
      next hleaf =>
        split
        next hblank =>
          obtain ⟨other, hmem, hother⟩ := hsome
          rcases List.mem_cons.mp hmem with rfl | hmem
          · rw [isBlankLeaf, hleaf, hblank] at hother
            cases hother
          · exact ih ⟨other, hmem, hother⟩
        next hblank =>
          obtain ⟨data, children⟩ := tree
          refine ⟨_, List.mem_cons_self, ?_⟩
          have htext := (htrim data.text).trans (Bool.eq_false_iff.mpr hblank)
          exact Bool.and_eq_false_iff.mpr (.inr htext)
      next => exact hsome

/-- Trimming leaves something of a line that is not blank. -/
theorem trimEdges_ne_nil {forest : Forest} (hsome : ∃ tree ∈ forest, isBlankLeaf tree = false) :
    forest.trimEdges ≠ [] := by
  obtain ⟨tree, hmem, htree⟩ := exists_trimFront Text.isBlankText_trimStart hsome
  obtain ⟨last, hlast, -⟩ :=
    exists_trimFront Text.isBlankText_trimEnd ⟨tree, List.mem_reverse.mpr hmem, htree⟩
  exact List.ne_nil_of_mem (List.mem_reverse.mpr hlast)

theorem full_paragraphOf {run : Forest} (hrun : run.Obeys Full)
    (hready : .ready ∉ run.kinds) : (paragraphOf run).Obeys Full := by
  unfold paragraphOf
  split
  next => exact obeys_nil
  next hblank =>
    refine obeys_cons.mpr ⟨Tree.obeys_node.mpr ⟨fun _ hnil => ?_, hrun.trimEdges wears_full⟩,
      obeys_nil⟩
    refine trimEdges_ne_nil ?_ (List.map_eq_nil_iff.mp hnil)
    obtain ⟨tree, hmem, htree⟩ : ∃ tree ∈ run, isBlankText tree = false := by
      simpa using hblank
    refine ⟨tree, hmem, ?_⟩
    -- A text leaf is no leaf that is ready yet.
    have hkind : tree.kind ≠ .ready := fun heq => hready (heq ▸ List.mem_map_of_mem hmem)
    rw [isBlankText, Bool.and_eq_false_iff] at htree
    rw [isBlankLeaf, Bool.and_eq_false_iff]
    refine htree.imp_left fun htext => ?_
    obtain ⟨data, children⟩ := tree
    have hneither : (data.kind == .text || data.kind == .ready) = false :=
      Bool.or_eq_false_iff.mpr ⟨htext, beq_eq_false_iff_ne.mpr hkind⟩
    cases children with
    | nil => rw [Tree.isTextLeaf, hneither, Bool.and_false]
    | cons => rfl

theorem full_paragraphsFrom {run forest : Forest} (hrun : run.Obeys Full)
    (hforest : forest.Obeys Full) (hready : .ready ∉ run.kinds) (hready' : .ready ∉ forest.kinds) :
    (paragraphsFrom run forest).Obeys Full := by
  have hparagraph : ∀ {run : Forest}, run.Obeys Full → .ready ∉ run.kinds →
      (paragraphOf run.reverse).Obeys Full := by
    intro run hrun hready
    refine full_paragraphOf hrun.reverse ?_
    rwa [kinds, List.map_reverse, List.mem_reverse]
  induction forest generalizing run with
  | nil => exact hparagraph hrun hready
  | cons tree rest ih =>
      obtain ⟨htree, hrest⟩ := obeys_cons.mp hforest
      obtain ⟨hkind, hkinds⟩ := not_or.mp (List.mem_cons.not.mp hready')
      rw [paragraphsFrom]
      split
      next =>
        exact obeys_append.mpr ⟨hparagraph hrun hready, ih obeys_nil hrest List.not_mem_nil hkinds⟩
      next =>
        split
        next =>
          exact obeys_append.mpr ⟨hparagraph hrun hready,
            obeys_cons.mpr ⟨htree, ih obeys_nil hrest List.not_mem_nil hkinds⟩⟩
        next =>
          refine ih (obeys_cons.mpr ⟨htree, hrun⟩) hrest ?_ hkinds
          exact List.mem_cons.not.mpr (not_or.mpr ⟨hkind, hready⟩)

theorem full_paragraphs {forest : Forest} (hforest : forest.Obeys Full)
    (hsound : forest.Obeys (Sound liftedKinds)) : forest.paragraphs.Obeys Full := by
  refine full_paragraphsFrom obeys_nil hforest List.not_mem_nil fun hmem => ?_
  obtain ⟨tree, htree, hkind⟩ := List.mem_map.mp hmem
  refine (obeys_iff.mp hsound tree htree).data.present ?_
  rw [show tree.data.kind = _ from hkind]
  decide

end Forest

/-! ## Notes -/

theorem Tree.kinds_forestRewriteNoteRefs_ne_nil {notes : List Note} (seen : List String)
    {children : Forest} (hsome : children.kinds ≠ []) :
    (forestRewriteNoteRefs notes seen children).1.kinds ≠ [] := by
  cases children with
  | nil => exact absurd rfl hsome
  | cons tree rest => nofun

namespace Note

theorem full_sectionOf (notes : List Note) : (sectionOf notes).Obeys Full := by
  refine obeys_sectionOf notes (fun _ => List.cons_ne_nil _ _) nofun (full_of_container rfl _)
    fun data kinds hnode => ?_
  cases hnode with
  | entry | body => exact full_of_container rfl _
  | name | backlink | text => exact nofun

theorem encloses_sectionOf {notes : List Note} (hsome : notes ≠ []) :
    (sectionOf notes).Obeys Encloses := by
  refine obeys_sectionOf notes (encloses_of_ne Kind.noConfusion _)
    (encloses_of_ne Kind.noConfusion _) (fun _ => ⟨?_, ?_⟩) fun data kinds hnode => ?_
  · simpa [List.replicate_eq_nil_iff] using hsome
  · exact fun kind hmem => .inl (List.eq_of_mem_replicate hmem)
  · cases hnode with
    | entry =>
        refine fun _ => ⟨List.cons_ne_nil _ _, ?_⟩
        exact List.forall_mem_cons.mpr ⟨.inr rfl, List.forall_mem_singleton.mpr (.inl rfl)⟩
    | body hkinds hready => exact fun _ => ⟨hkinds, fun kind hmem => .inr (hready kind hmem)⟩
    | name | backlink | text => exact encloses_of_ne Kind.noConfusion _

/-- Resolving the notes leaves nothing empty. -/
theorem full_resolve (definitions : List Directive) {body : Forest} (hbody : body.Obeys Full) :
    (resolve definitions body).1.Obeys Full := by
  have hkept : (withoutUndefined definitions body).1.Obeys Full :=
    obeys_dropUndefined wears_full _ hbody
  rw [resolve_eq]
  dsimp only
  split
  next => exact hkept
  next =>
    refine obeys_append.mpr ⟨Tree.forestObeys_rewriteNoteRefs ?_ (fun _ _ hdata => hdata) ?_ []
      hkept, full_sectionOf _⟩
    · intro data children seen hdata hgoes
      exact Tree.kinds_forestRewriteNoteRefs_ne_nil seen (hdata hgoes)
    · intro note index data _ _ _
      refine Tree.obeys_node.mpr ⟨full_of_container rfl _, obeys_cons.mpr ⟨?_, obeys_nil⟩⟩
      exact Tree.obeys_node.mpr ⟨nofun, obeys_nil⟩

theorem encloses_resolve (definitions : List Directive) {body : Forest}
    (hbody : body.Obeys (Sound liftedKinds)) :
    (resolve definitions body).1.Obeys Encloses := by
  have hkept : (withoutUndefined definitions body).1.Obeys fun data _ =>
      data.kind ≠ .container := by
    refine Tree.forestObeys_mono (fun data _ hdata hkind => hdata.present ?_)
      (obeys_dropUndefined (Rule.Stable.sound (by decide)).wears _ hbody)
    rw [hkind]
    decide
  rw [resolve_eq]
  dsimp only
  split
  next => exact Tree.forestObeys_mono (fun _ kinds hdata => encloses_of_ne hdata kinds) hkept
  next hsome =>
    rw [List.isEmpty_iff] at hsome
    refine obeys_append.mpr ⟨?_, encloses_sectionOf hsome⟩
    refine Tree.forestObeys_rewriteNoteRefs ?_ ?_ ?_ [] hkept
    · exact fun _ _ _ hdata => encloses_of_ne hdata _
    · exact fun _ _ hdata => encloses_of_ne hdata _
    · intro note index data _ _ _
      refine Tree.obeys_node.mpr ⟨fun _ => ⟨nofun, ?_⟩, obeys_cons.mpr ⟨?_, obeys_nil⟩⟩
      · exact List.forall_mem_cons.mpr ⟨.inr rfl, nofun⟩
      · exact Tree.obeys_node.mpr ⟨encloses_of_ne Kind.noConfusion _, obeys_nil⟩

end Note

/-! ## Runs -/

namespace Draft

variable {source : Source} {registries : Registries}

theorem full_rearranging {pass : Pass} (hpass : pass ∈ rearranging) {draft next : Draft}
    {notices : List Notice} (hsound : draft.body.Obeys (Sound liftedKinds))
    (hdraft : draft.body.Obeys Full)
    (hrun : pass.run source registries draft = .ok (next, notices)) : next.body.Obeys Full := by
  cases pass with
  | blockquotes =>
      cases hrun
      exact full_mergeQuotes hdraft
  | trim =>
      cases hrun
      exact hdraft.trimNewlines
  | paragraphs =>
      cases hrun
      exact full_paragraphs hdraft hsound
  | flags | commands | contributors =>
      cases hrun
      exact hdraft
  | title =>
      obtain ⟨first, others, -, rfl, -⟩ := title_eq_ok hrun
      exact hdraft
  | _ => simp [rearranging] at hpass

/-- The pass for notes finds nothing empty. -/
theorem full_before_notes {body : Forest} {draft : Draft}
    (hbody : Forest.ofLexemes source.lexemes = .ok body)
    (hrun : (runPasses source registries beforeNotes { body }).2 = .ok draft) :
    draft.body.Obeys Full := by
  obtain ⟨lifted, hlifted, hrearranged⟩ := runPasses_append_eq_ok hrun
  have hbuilt : Obeys (Built source) (Draft.body { body }) := built_ofLexemes hbody
  obtain ⟨hsound, -⟩ := sound_of_lifted hbuilt hlifted
  have hfull : lifted.body.Obeys Full := by
    obtain ⟨-, rfl⟩ := eq_of_lifted hlifted
    have hplain : body.Obeys fun data _ => data.kind ≠ .paragraph :=
      Tree.forestObeys_mono (fun _ _ hdata => hdata.ne_paragraph) hbuilt
    exact (Tree.full_forestPruneEmpty hplain).subset List.filter_sublist.subset
  have hboth : draft.body.Obeys (Sound liftedKinds) ∧ draft.body.Obeys Full := by
    refine runPasses_invariant (P := fun other => other.body.Obeys (Sound liftedKinds) ∧
      other.body.Obeys Full) ?_ hrearranged ⟨hsound, hfull⟩
    rintro pass hpass draft next notices ⟨hdraft, hdraftFull⟩ hnext
    exact ⟨run_rearranging (.sound (by decide)) hpass hdraft hnext,
      full_rearranging hpass hdraft hdraftFull hnext⟩
  exact hboth.2

end Draft

end PageMarkup
