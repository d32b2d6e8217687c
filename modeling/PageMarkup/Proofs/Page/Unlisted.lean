import PageMarkup.Proofs.Page.Presented

/-! # Pages without notes and headings

Notes and headings are the only parts of a page that are told elsewhere on it, in the
notes section and in the outline. A page that has neither goes through the passes tree by
tree: what is made of a tree does not depend on the trees around it.
-/

namespace PageMarkup

/-! ## Passes that find nothing -/

namespace Tree

variable {f : Tree → Option (Forest × List Notice)}

mutual

theorem expand_of_unanswered {tree : Tree} (hnone : ∀ below ∈ tree.subtrees, f below = none) :
    expand f tree = ([tree], []) := by
  cases tree with
  | node data children =>
      rw [subtrees_node, List.forall_mem_cons] at hnone
      simp [expand, hnone.1, forestExpand_of_unanswered hnone.2]

/-- A forest without anything to replace stays as it is. -/
theorem forestExpand_of_unanswered {forest : Forest}
    (hnone : ∀ below ∈ forest.subtrees, f below = none) :
    forestExpand f forest = (forest, []) := by
  cases forest with
  | nil => rw [forestExpand]
  | cons tree rest =>
      rw [Forest.subtrees_cons, List.forall_mem_append] at hnone
      simp [forestExpand, expand_of_unanswered hnone.1, forestExpand_of_unanswered hnone.2]

end

mutual

theorem trimHeadings_of_lacks {tree : Tree} (htree : tree.isHeading = false)
    (hchildren : Forest.Lacks isHeading tree.children) : tree.trimHeadings = tree := by
  cases tree with
  | node data children =>
      have hlevel : data.kind.headingLevel?.isSome = false := htree
      have hinner : forestTrimHeadings children = children := forestTrimHeadings_of_lacks hchildren
      simp [trimHeadings, hlevel, hinner]

theorem forestTrimHeadings_of_lacks {forest : Forest} (hforest : forest.Lacks isHeading) :
    forestTrimHeadings forest = forest := by
  cases forest with
  | nil => rw [forestTrimHeadings]
  | cons tree rest =>
      obtain ⟨htree, hchildren, hrest⟩ := Forest.lacks_cons.mp hforest
      rw [forestTrimHeadings, trimHeadings_of_lacks htree hchildren,
        forestTrimHeadings_of_lacks hrest]

end

mutual

theorem slugHeadings_of_lacks (slugger : Slugger) {tree : Tree} (htree : tree.isHeading = false)
    (hchildren : Forest.Lacks isHeading tree.children) :
    tree.slugHeadings slugger = (tree, [], slugger) := by
  cases tree with
  | node data children =>
      have hlevel : data.kind.headingLevel? = none := by simpa [isHeading, kind] using htree
      have hinner : forestSlugHeadings slugger children = (children, [], slugger) :=
        forestSlugHeadings_of_lacks slugger hchildren
      simp [slugHeadings, hlevel, hinner]

theorem forestSlugHeadings_of_lacks (slugger : Slugger) {forest : Forest}
    (hforest : forest.Lacks isHeading) :
    forestSlugHeadings slugger forest = (forest, [], slugger) := by
  cases forest with
  | nil => rw [forestSlugHeadings]
  | cons tree rest =>
      obtain ⟨htree, hchildren, hrest⟩ := Forest.lacks_cons.mp hforest
      simp [forestSlugHeadings, slugHeadings_of_lacks slugger htree hchildren,
        forestSlugHeadings_of_lacks slugger hrest]

end

theorem forestLower_append (first second : Forest) :
    forestLower (first ++ second) = forestLower first ++ forestLower second := by
  induction first with
  | nil => simp [forestLower]
  | cons tree rest ih => simp [forestLower, ih]

theorem forestPieces_append (first second : Forest) :
    forestPieces (first ++ second) = forestPieces first ++ forestPieces second := by
  induction first with
  | nil => simp [forestPieces]
  | cons tree rest ih => simp [forestPieces, ih]

end Tree

namespace Forest

variable {p : Tree → Bool}

theorem removeWhere_of_lacks {forest : Forest} (hforest : forest.Lacks p) :
    removeWhere p forest = (forest, []) := by
  have hnone := Tree.forestFindPath?_of_lacks 0 hforest
  unfold removeWhere
  cases forest.subtrees.countP p <;> simp [removeTimes, hnone]

theorem dropBlankHeadings_of_lacks {forest : Forest} (hforest : forest.Lacks Tree.isHeading) :
    forest.dropBlankHeadings = (forest, []) := by
  have hblank : forest.Lacks fun tree => tree.isHeading && tree.isLeaf := by
    intro tree hmem
    simp [hforest tree hmem]
  simp [dropBlankHeadings, Tree.forestTrimHeadings_of_lacks hforest, removeWhere_of_lacks hblank]

theorem slugHeadings_of_lacks {forest : Forest} (hforest : forest.Lacks Tree.isHeading) :
    forest.slugHeadings = (forest, []) := by
  simp [slugHeadings, Tree.forestSlugHeadings_of_lacks _ hforest]

theorem html_append (first second : Forest) :
    (first ++ second : Forest).html = first.html ++ second.html := by
  simp [html, Tree.forestPieces_append, String.join_append]

end Forest

/-- Without references every definition is left over, and nothing else is said about notes. -/
theorem Note.resolve_of_lacks (definitions : List Directive) {forest : Forest}
    (hforest : forest.Lacks Tree.isNoteRef) :
    resolve definitions forest = (forest, (selectDefinitions [] [] definitions).2) := by
  have hnone : referenceNames forest = [] := by
    rw [Forest.referenceNames_eq, Forest.references_eq_nil_iff.mpr hforest, List.map_nil]
  simp [resolve, hnone, dropUndefined, collect]

/-! ## Pages -/

/-- A node that is neither a reference nor a heading. -/
def Node.Unlisted : Rule := fun data _ =>
  data.kind ≠ .aggregate (.bracket .noteRef) ∧ data.kind.headingLevel? = none

namespace Node

theorem stable_unlisted : Rule.Stable Unlisted where
  fewer hdata _ := hdata
  text _ _ hdata := hdata
  span _ hdata := hdata
  paragraph _ _ := ⟨nofun, rfl⟩
  quote _ _ hdata := hdata

end Node

namespace Forest

variable {forest : Forest}

theorem Obeys.lacks_references (hforest : forest.Obeys Node.Unlisted) :
    forest.Lacks Tree.isNoteRef := by
  intro tree hmem
  have hkind : tree.kind ≠ .aggregate (.bracket .noteRef) :=
    (Tree.forestObeys_of_mem_subtrees hforest hmem).data.1
  simpa [Tree.isNoteRef] using hkind

theorem Obeys.lacks_headings (hforest : forest.Obeys Node.Unlisted) :
    forest.Lacks Tree.isHeading := by
  intro tree hmem
  have hlevel : tree.kind.headingLevel? = none :=
    (Tree.forestObeys_of_mem_subtrees hforest hmem).data.2
  simp [Tree.isHeading, hlevel]

theorem Obeys.unlisted_resolveExternals (hforest : forest.Obeys Node.Unlisted) :
    (Link.resolveExternals forest).1.Obeys Node.Unlisted := by
  refine Tree.forestObeys_expand (fun _ _ _ hdata => hdata) (fun tree answer _ hsome => ?_) hforest
  cases (Link.answers_of_resolveExternal? hsome).2 with
  | removed => exact obeys_nil
  | leaf => exact obeys_cons.mpr ⟨Tree.obeys_node.mpr ⟨⟨nofun, rfl⟩, obeys_nil⟩, obeys_nil⟩

theorem Obeys.unlisted_resolveAll (registries : Registries)
    (hforest : forest.Obeys Node.Unlisted) :
    (Embed.resolveAll registries forest).1.Obeys Node.Unlisted := by
  refine Tree.forestObeys_expand (fun _ _ _ hdata => hdata) (fun tree answer _ hsome => ?_) hforest
  cases (Embed.answers_of_resolve? hsome).2 with
  | removed => exact obeys_nil
  | figure =>
      refine Tree.forestObeys_of_subtrees fun below hmem => ?_
      have hkind : below.kind = .container ∨ below.kind = .ready := by
        simp only [Embed.figure, Tree.container, Tree.elementLeaf, Tree.leaf, subtrees_cons,
          Tree.subtrees_node, subtrees_nil, List.mem_append, List.mem_cons, List.not_mem_nil,
          or_false] at hmem
        rcases hmem with rfl | (rfl | rfl) | rfl <;> simp
      have hkind : below.data.kind = .container ∨ below.data.kind = .ready := hkind
      rcases hkind with hkind | hkind <;>
        exact ⟨by rw [hkind]; exact Kind.noConfusion, by rw [hkind]; rfl⟩

theorem Obeys.arranged {rule : Rule} (hrule : rule.Stable) (hforest : forest.Obeys rule) :
    forest.arranged.Obeys rule :=
  ((hforest.mergeQuotes hrule).trimNewlines).paragraphs hrule

/-- On a page without references and headings only links and embeds are resolved. -/
theorem presented_of_unlisted (registries : Registries) (definitions : List Directive)
    (hforest : forest.Obeys Node.Unlisted) :
    forest.presented registries definitions =
      ((Embed.resolveAll registries (Link.resolveExternals forest.arranged).1).1.lower, []) := by
  have harranged := hforest.arranged Node.stable_unlisted
  have hresolved := harranged.unlisted_resolveExternals.unlisted_resolveAll registries
  unfold presented resolved
  rw [Note.resolve_of_lacks definitions harranged.lacks_references]
  simp only [dropBlankHeadings_of_lacks hresolved.lacks_headings,
    slugHeadings_of_lacks hresolved.lacks_headings]

end Forest

end PageMarkup
