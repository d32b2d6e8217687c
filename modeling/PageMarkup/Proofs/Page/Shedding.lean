import PageMarkup.Proofs.Page.Originals

/-! # What a page sheds

What is said to be removed was opened in the page before and is not there any more. To see
this, openers are counted: no offset is told more often, and left more often besides, than
something was opened there. On a nested page that is at most once.
-/

namespace PageMarkup

open Node Forest

/-- Whether the remark says that something was removed. -/
def Remark.isRemoval : Remark → Bool
  | .emptyRemoved _ | .noteUndefined _ | .linkWithoutTarget | .mediaUnknown _ => true
  | _ => false

/-- Where the notice says that something was removed. -/
def Notice.removedAt? (notice : Notice) : Option Nat :=
  if notice.remark.isRemoval then notice.offset else none

/-- Offsets of what notices say was removed. -/
def Notice.removals (notices : List Notice) : List Nat := notices.filterMap removedAt?

namespace Forest

/-- The openers left, and the offsets besides, are no more than the openers of the forest. -/
def Sheds (forest rest : Forest) (offsets : List Nat) : Prop :=
  ∀ offset, rest.openings.count offset + offsets.count offset ≤ forest.openings.count offset

variable {forest rest other : Forest} {offsets more : List Nat}

namespace Sheds

theorem refl (forest : Forest) : Sheds forest forest [] := fun _ => Nat.le_refl _

theorem nil (forest : Forest) : Sheds forest [] [] := fun _ => Nat.zero_le _

theorem trans (hfirst : Sheds forest rest offsets) (hsecond : Sheds rest other more) :
    Sheds forest other (offsets ++ more) := by
  intro offset
  have hfirst := hfirst offset
  have hsecond := hsecond offset
  rw [List.count_append]
  omega

/-- Shedding nothing more. -/
theorem trans_nil (hfirst : Sheds forest rest offsets) (hsecond : Sheds rest other []) :
    Sheds forest other offsets :=
  List.append_nil offsets ▸ hfirst.trans hsecond

theorem append {forest' rest' : Forest} (hfirst : Sheds forest rest offsets)
    (hsecond : Sheds forest' rest' more) :
    Sheds (forest ++ forest') (rest ++ rest') (offsets ++ more) := by
  intro offset
  have hfirst := hfirst offset
  have hsecond := hsecond offset
  simp only [openings_append, List.count_append]
  omega

theorem node {children : Forest} {data other : Node} (hopening : other.opening = data.opening)
    (hchildren : Sheds children rest offsets) :
    Sheds [.node data children] [.node other rest] offsets := by
  intro offset
  have hchildren := hchildren offset
  simp only [openings_cons, openings_nil, hopening, List.count_append, List.count_nil]
  omega

/-- A node without an opener around what is left. -/
theorem wrapped {data : Node} (hopening : data.opening = [])
    (hforest : Sheds forest rest offsets) : Sheds forest [.node data rest] offsets := by
  intro offset
  have hforest := hforest offset
  simp only [openings_cons, openings_nil, hopening, List.count_append, List.count_nil]
  omega

/-- A node that goes with all that is left in it. -/
theorem gone {children : Forest} {data : Node} (hchildren : Sheds children rest offsets) :
    Sheds [.node data children] [] (offsets ++ data.opening) := by
  intro offset
  have hchildren := hchildren offset
  simp only [openings_cons, openings_nil, List.count_append, List.count_nil]
  omega

theorem of_sublist (hsublist : rest.Sublist forest) : Sheds forest rest [] := by
  intro offset
  rw [openings_eq_flatMap, openings_eq_flatMap forest]
  exact (hsublist.flatMap _).count_le offset

/-- What is shed in full may be told in part. -/
theorem told (hforest : Sheds forest rest offsets) (hmore : more.Sublist offsets) :
    Sheds forest rest more := by
  intro offset
  have hforest := hforest offset
  have hmore := hmore.count_le offset
  omega

end Sheds

/-! ## Trimming and grouping -/

theorem count_openings_reverse (forest : Forest) (offset : Nat) :
    (openings forest.reverse).count offset = forest.openings.count offset := by
  rw [openings_eq_flatMap, openings_eq_flatMap forest]
  exact ((List.reverse_perm forest).flatMap_right _).count_eq offset

theorem sheds_trimFront (trimText : String → String) (forest : Forest) :
    Sheds forest (trimFront trimText forest) [] := by
  induction forest with
  | nil => exact .refl []
  | cons tree rest ih =>
      rw [trimFront]
      split
      next =>
        split
        next => exact ((Sheds.nil [tree]).append ih)
        next =>
          obtain ⟨data, children⟩ := tree
          have hopening : ({ data with text := trimText data.text } : Node).opening =
              data.opening := rfl
          exact ((Sheds.refl children).node hopening).append (.refl rest)
      next => exact .refl _

theorem sheds_trimEdges (forest : Forest) : Sheds forest forest.trimEdges [] := by
  have hfront : Sheds forest forest.trimLeading [] := sheds_trimFront _ forest
  refine hfront.trans_nil fun offset => ?_
  have hback := sheds_trimFront Text.trimEnd forest.trimLeading.reverse offset
  rw [count_openings_reverse] at hback
  rw [trimEdges, trimTrailing, count_openings_reverse]
  exact hback

theorem sheds_settle (data : Node) (children : Forest) :
    Sheds children (settle data children) [] := by
  unfold settle
  split
  next => exact sheds_trimEdges children
  next => exact .refl children

theorem sheds_quotedParagraph (line : Tree) : Sheds line.children (quotedParagraph line) [] := by
  unfold quotedParagraph
  dsimp only
  split
  next => exact .nil _
  next => exact (sheds_trimEdges line.children).wrapped rfl

theorem sheds_prependQuote (line : Tree) (forest : Forest) :
    Sheds (line :: forest) (prependQuote line forest) [] := by
  obtain ⟨data, children⟩ := line
  have hparagraphs : Sheds children (quotedParagraph (.node data children)) [] :=
    sheds_quotedParagraph _
  cases forest with
  | nil => exact hparagraphs.node rfl
  | cons next rest =>
      obtain ⟨nextData, nextChildren⟩ := next
      rw [prependQuote]
      split
      next =>
        intro offset
        have hparagraphs := hparagraphs offset
        have hopening : ({ data with span := data.span.cover nextData.span } : Node).opening =
            data.opening := rfl
        simp only [Tree.data_node, Tree.children_node, openings_cons, openings_append, hopening,
          List.count_append, List.count_nil] at hparagraphs ⊢
        omega
      next => exact (hparagraphs.node rfl).append (.refl _)

/-- Merging quotes keeps the opener of the first line of each. -/
theorem sheds_mergeQuotes (forest : Forest) : Sheds forest forest.mergeQuotes [] := by
  have hjoined : Sheds forest (joinQuotes forest) [] := by
    induction forest with
    | nil => exact .refl []
    | cons tree rest ih =>
        have hrest : Sheds (tree :: rest) (tree :: joinQuotes rest) [] :=
          (Sheds.refl [tree]).append ih
        rw [joinQuotes]
        split
        next => exact hrest.trans_nil (sheds_prependQuote tree _)
        next => exact hrest
  exact hjoined.trans_nil (.of_sublist List.filter_sublist)

theorem sheds_paragraphOf (run : Forest) : Sheds run (paragraphOf run) [] := by
  unfold paragraphOf
  split
  next => exact .nil run
  next => exact (sheds_trimEdges run).wrapped rfl

theorem sheds_paragraphsFrom (run forest : Forest) :
    Sheds (run.reverse ++ forest) (paragraphsFrom run forest) [] := by
  induction forest generalizing run with
  | nil =>
      rw [paragraphsFrom, List.append_nil]
      exact sheds_paragraphOf _
  | cons tree rest ih =>
      have hrest : Sheds rest (paragraphsFrom [] rest) [] := ih []
      rw [paragraphsFrom]
      split
      next => exact (sheds_paragraphOf _).append (((Sheds.nil [tree]).append hrest))
      next =>
        split
        next => exact (sheds_paragraphOf _).append ((Sheds.refl [tree]).append hrest)
        next =>
          have hlonger := ih (tree :: run)
          rwa [List.reverse_cons, List.append_assoc, List.singleton_append] at hlonger

theorem sheds_paragraphs (forest : Forest) : Sheds forest forest.paragraphs [] :=
  sheds_paragraphsFrom [] forest

theorem sheds_trimNewlines (forest : Forest) : Sheds forest forest.trimNewlines [] := by
  have hback := List.dropWhile_sublist isNewline (l := (forest.dropWhile isNewline).reverse)
  have htail := List.reverse_sublist.mpr hback
  rw [List.reverse_reverse] at htail
  exact .of_sublist (htail.trans (List.dropWhile_sublist _))

end Forest

/-! ## Taking trees out -/

theorem Node.Original.opening_eq {page : Forest} {data : Node} {kinds : List Kind}
    (hdata : Original page data kinds) {aggregate : Aggregate}
    (hkind : data.kind = .aggregate aggregate) : data.opening = [data.offset] := by
  obtain ⟨tree, -, -, opener, -, hopener⟩ := hdata aggregate hkind
  rw [opening, offset, hopener]
  rfl

namespace Notice

theorem removals_append (first second : List Notice) :
    removals (first ++ second) = removals first ++ removals second := List.filterMap_append

/-- The warning about an aggregate tells its opener. -/
theorem removals_emptyNotice {page : Forest} {data : Node} {kinds : List Kind}
    (hdata : Original page data kinds) (hneeds : data.kind.needsChildren = true) :
    removals [data.emptyNotice] = data.opening := by
  obtain ⟨aggregate, hkind⟩ := Kind.aggregate_of_any hneeds
  rw [hdata.opening_eq hkind]
  rfl

end Notice

namespace Tree

variable {page : Forest}

mutual

theorem sheds_pruneEmpty {tree : Tree} (htree : tree.Obeys (Original page)) :
    Forest.Sheds [tree] tree.pruneEmpty.1 (Notice.removals tree.pruneEmpty.2) := by
  obtain ⟨data, children⟩ := tree
  have hchildren := sheds_forestPruneEmpty htree.children
  rw [pruneEmpty]
  dsimp only
  split
  next hempty =>
    have hgone : Forest.Sheds [node data children] []
        (Notice.removals (forestPruneEmpty children).2 ++ data.opening) := hchildren.gone
    have hnotice : Notice.removals [data.emptyNotice] = data.opening :=
      Notice.removals_emptyNotice htree.data hempty.1
    rwa [← hnotice, ← Notice.removals_append] at hgone
  next => exact hchildren.node rfl

/-- Pruning warns of the openers that it takes out. -/
theorem sheds_forestPruneEmpty {forest : Forest} (hforest : forest.Obeys (Original page)) :
    Forest.Sheds forest (forestPruneEmpty forest).1
      (Notice.removals (forestPruneEmpty forest).2) := by
  cases forest with
  | nil => exact .refl []
  | cons tree rest =>
      obtain ⟨htree, hrest⟩ := obeys_cons.mp hforest
      have happend := (sheds_pruneEmpty htree).append (sheds_forestPruneEmpty hrest)
      intro offset
      have happend := happend offset
      -- The rest of the forest is pruned, and warned of, before its first tree.
      rw [forestPruneEmpty]
      simp only [Notice.removals_append, List.count_append] at happend ⊢
      rw [Nat.add_comm (List.count offset (Notice.removals (forestPruneEmpty rest).2))]
      exact happend

end

end Tree

/-- The openers of what a removal takes out, ancestors that are emptied included. -/
def Removal.taken (removal : Removal) : List Nat :=
  removal.removed.toList.flatMap Node.opening ++ removal.emptied.flatMap Node.opening

namespace Forest

variable {p : Tree → Bool} {page forest : Forest} {removal : Removal}

/-- A tree that is taken out leaves with its opener, and so do the ancestors that go as well. -/
theorem RemovesFirst.sheds {target : Tree} (hremoves : RemovesFirst p target forest removal) :
    Sheds forest removal.rest removal.taken := by
  induction hremoves with
  | here before after =>
      obtain ⟨data, children⟩ := target
      have htarget : Sheds [Tree.node data children] [] ([] ++ data.opening) :=
        (Sheds.nil children).gone
      have happend := (Sheds.refl before).append (htarget.append (.refl after))
      simpa [Removal.taken] using happend
  | deeper before after data children inner _ _ _ _ ih =>
      have hnode : Sheds [.node data children] [.node data inner.rest] inner.taken := ih.node rfl
      have happend := (Sheds.refl before).append (hnode.append (.refl after))
      simpa [Removal.taken] using happend
  | settled before after data children inner _ _ _ _ _ ih =>
      have hnode : Sheds [.node data children] [.node data (settle data inner.rest)] inner.taken :=
        (ih.trans_nil (sheds_settle data inner.rest)).node rfl
      have happend := (Sheds.refl before).append (hnode.append (.refl after))
      simpa [Removal.taken] using happend
  | emptied before after data children inner _ _ _ _ _ _ ih =>
      have hnode : Sheds [.node data children] [] (inner.taken ++ data.opening) := ih.gone
      have happend := (Sheds.refl before).append (hnode.append (.refl after))
      simpa [Removal.taken] using happend

theorem sheds_removeWhere (p : Tree → Bool) (forest : Forest) :
    Sheds forest (removeWhere p forest).1 ((removeWhere p forest).2.flatMap Removal.taken) := by
  rw [removeWhere]
  generalize forest.subtrees.countP p = count
  induction count generalizing forest with
  | zero => exact .refl forest
  | succ count ih =>
      rw [removeTimes]
      split
      next => exact .refl forest
      next path hfind =>
        obtain ⟨target, hremoves⟩ := removesFirst_of_findPath? hfind
        exact hremoves.sheds.trans (ih _)

/-- What is taken out first is the first tree that satisfies the predicate. -/
theorem RemovesFirst.find? {target : Tree} (hremoves : RemovesFirst p target forest removal) :
    forest.subtrees.find? p = some target ∧ removal.removed = some target.data := by
  have hnone : ∀ {before : Forest}, Lacks p before → before.subtrees.find? p = none :=
    fun hbefore => List.find?_eq_none.mpr fun tree hmem => by simp [hbefore tree hmem]
  induction hremoves with
  | here before after hbefore htarget =>
      obtain ⟨data, children⟩ := target
      simp [subtrees_cons, Tree.subtrees_node, List.find?_append, hnone hbefore, htarget]
  | deeper before after data children inner hbefore hnot _ _ ih
  | settled before after data children inner hbefore hnot _ _ _ ih
  | emptied before after data children inner hbefore hnot _ _ _ _ ih =>
      simp [subtrees_cons, Tree.subtrees_node, List.find?_append, hnone hbefore, hnot, ih]

theorem head?_removeWhere (p : Tree → Bool) (forest : Forest) :
    (removeWhere p forest).2.head?.bind Removal.removed =
      (forest.subtrees.find? p).map Tree.data := by
  rw [removeWhere]
  cases hcount : forest.subtrees.countP p with
  | zero =>
      rw [List.find?_eq_none.mpr (List.countP_eq_zero.mp hcount)]
      rfl
  | succ count =>
      rw [removeTimes]
      split
      next hnone =>
        have hlacks := Tree.forestFindPath?_eq_none hnone
        rw [List.countP_eq_zero.mpr fun tree hmem => by simp [hlacks tree hmem]] at hcount
        cases hcount
      next path hfind =>
        obtain ⟨target, hremoves⟩ := removesFirst_of_findPath? hfind
        obtain ⟨hfound, hremoved⟩ := hremoves.find?
        rw [hfound]
        exact hremoved

end Forest

/-- The warnings about what is emptied tell openers of it. -/
theorem Removal.removals_notices {page : Forest} {removal : Removal}
    (hemptied : ∀ data ∈ removal.emptied, ∃ kinds, Original page data kinds) :
    (Notice.removals removal.notices).Sublist (removal.emptied.flatMap Node.opening) := by
  rw [notices]
  generalize removal.emptied = emptied at hemptied ⊢
  induction emptied with
  | nil => exact List.Sublist.refl _
  | cons data rest ih =>
      obtain ⟨⟨kinds, hdata⟩, hrest⟩ := List.forall_mem_cons.mp hemptied
      rw [List.flatMap_cons, List.filterMap_cons]
      by_cases hneeds : data.kind.needsChildren = true
      · rw [Node.emptiedNotice?, if_pos hneeds, ← Notice.removals_emptyNotice hdata hneeds]
        exact (List.Sublist.refl (Notice.removals [data.emptyNotice])).append (ih hrest)
      · rw [Node.emptiedNotice?, if_neg hneeds]
        exact (ih hrest).trans (List.sublist_append_right _ _)

/-! ## Notes -/

namespace Note

variable {page forest : Forest}

/-- What is said of the references to a name tells openers of what is taken out, each once. -/
theorem removals_of_dropping (name : String) (hforest : forest.Obeys (Original page)) :
    (Notice.removals
      (⟨.noteUndefined name, (forest.subtrees.find? (Tree.refersTo name)).map (·.data.offset)⟩ ::
        (forest.removeWhere (Tree.refersTo name)).2.flatMap Removal.notices)).Sublist
      ((forest.removeWhere (Tree.refersTo name)).2.flatMap Removal.taken) := by
  have hremovals := original_removals name hforest
  have hhead := head?_removeWhere (Tree.refersTo name) forest
  generalize (forest.removeWhere (Tree.refersTo name)).2 = removals at hremovals hhead ⊢
  have hemptied : ∀ others ⊆ removals, (Notice.removals (others.flatMap Removal.notices)).Sublist
      (others.flatMap Removal.taken) := by
    intro others hsubset
    rw [Notice.removals, List.filterMap_flatMap]
    refine List.Sublist.flatMap_right _ fun removal hmem => ?_
    exact (Removal.removals_notices (hremovals removal (hsubset hmem)).2).trans
      (List.sublist_append_right _ _)
  cases hfind : forest.subtrees.find? (Tree.refersTo name) with
  | none => exact hemptied _ (List.Subset.refl _)
  | some first =>
      -- The first reference is what the first removal takes out.
      rw [hfind] at hhead
      obtain ⟨removal, hremoval, hremoved⟩ := Option.bind_eq_some_iff.mp hhead
      obtain ⟨others, rfl⟩ := List.head?_eq_some_iff.mp hremoval
      obtain ⟨⟨target, htarget, horiginal, hholds⟩, hgone⟩ := hremovals removal List.mem_cons_self
      have hkind : target.data.kind = .aggregate (.bracket .noteRef) :=
        beq_iff_eq.mp (Bool.and_eq_true_iff.mp hholds).1
      have hsame : first.data = target.data := Option.some.inj (hremoved.symm.trans htarget)
      have hfirst : ([target.data.offset] ++ Notice.removals removal.notices).Sublist
          removal.taken := by
        rw [Removal.taken, htarget, ← horiginal.data.opening_eq hkind, Option.toList_some,
          List.flatMap_singleton]
        exact (List.Sublist.refl _).append (Removal.removals_notices hgone)
      have hrest := hemptied others (List.subset_cons_self _ _)
      have happend := hfirst.append hrest
      rw [List.append_assoc, ← Notice.removals_append] at happend
      rw [Option.map_some, hsame]
      exact happend

/-- Dropping references warns of openers that it takes out, of each once. -/
theorem sheds_dropUndefined (names : List String) (hforest : forest.Obeys (Original page)) :
    Sheds forest (dropUndefined names forest).1
      (Notice.removals (dropUndefined names forest).2) := by
  induction names generalizing forest with
  | nil => exact .refl forest
  | cons name names ih =>
      have hkept := hforest.removeWhere (p := Tree.refersTo name) stable_original.wears
        fun _ => Tree.goesWhenEmpty_of_refersTo
      have hsheds := (sheds_removeWhere (Tree.refersTo name) forest).trans (ih hkept)
      refine hsheds.told ?_
      rw [dropUndefined]
      dsimp only
      rw [Notice.removals_append]
      exact (removals_of_dropping name hforest).append (List.Sublist.refl _)

theorem openings_sectionOf (notes : List Note) : openings (sectionOf notes) = [] := by
  refine census_eq_nil fun tree hmem => ?_
  have hnone := (Tree.forestObeys_of_mem_subtrees (unopened_sectionOf notes) hmem).data
  rw [Node.opening, hnone]
  rfl

end Note

/-- What takes the place of a node and has no openers below. -/
theorem Forest.Sheds.replaced {children rest : Forest} {data other : Node}
    (hopening : other.opening = data.opening) (hrest : openings rest = []) :
    Sheds [.node data children] [.node other rest] [] :=
  ((Sheds.nil children).trans_nil fun _ => by rw [hrest]; exact Nat.zero_le _).node hopening

namespace Tree

mutual

theorem sheds_rewriteNoteRefs (notes : List Note) (seen : List String) (tree : Tree) :
    Forest.Sheds [tree] [(tree.rewriteNoteRefs notes seen).1] [] := by
  obtain ⟨data, children⟩ := tree
  have hchildren := sheds_forestRewriteNoteRefs notes seen children
  rw [rewriteNoteRefs]
  dsimp only
  split
  next =>
    split
    next => exact .replaced rfl rfl
    next => exact .refl _
  next => exact hchildren.node rfl

/-- Rewriting references leaves openers where they are. -/
theorem sheds_forestRewriteNoteRefs (notes : List Note) (seen : List String) (forest : Forest) :
    Forest.Sheds forest (forestRewriteNoteRefs notes seen forest).1 [] := by
  cases forest with
  | nil => exact .refl []
  | cons tree rest =>
      exact (sheds_rewriteNoteRefs notes seen tree).append
        (sheds_forestRewriteNoteRefs notes _ rest)

end

end Tree

namespace Note

variable {page forest : Forest}

theorem removals_definitionWarnings (names earlier : List String) (definitions : List Directive) :
    Notice.removals (definitionWarnings names earlier definitions) = [] := by
  induction definitions generalizing earlier with
  | nil => rfl
  | cons definition rest ih =>
      rw [definitionWarnings, Notice.removals_append, ih, List.append_nil, definitionWarning?]
      split
      next => rfl
      next => split <;> rfl

/-- Resolving notes tells the openers of what it takes out. -/
theorem sheds_resolve (definitions : List Directive) (hforest : forest.Obeys (Original page)) :
    Sheds forest (resolve definitions forest).1
      (Notice.removals (resolve definitions forest).2) := by
  have hkept : Sheds forest (withoutUndefined definitions forest).1
      (Notice.removals (withoutUndefined definitions forest).2) := sheds_dropUndefined _ hforest
  rw [resolve_eq]
  dsimp only
  split
  next => rwa [Notice.removals_append, removals_definitionWarnings]
  next =>
    generalize collect (referenceNames forest) definitions (names forest) = notes
    have hrewritten := hkept.trans_nil (Tree.sheds_forestRewriteNoteRefs notes [] _)
    have hnotes : Notice.removals [⟨.notesResolved notes.length, none⟩] = [] := rfl
    intro offset
    have hrewritten := hrewritten offset
    rwa [openings_append, openings_sectionOf, List.append_nil, Notice.removals_append,
      Notice.removals_append, removals_definitionWarnings, hnotes, List.nil_append,
      List.append_nil]

end Note

namespace Tree

variable {f : Tree → Option (Forest × List Notice)}

mutual

theorem sheds_expand {tree : Tree} (hf : ∀ below ∈ tree.subtrees, ∀ answer,
      f below = some answer → Forest.Sheds [below] answer.1 (Notice.removals answer.2)) :
    Forest.Sheds [tree] (expand f tree).1 (Notice.removals (expand f tree).2) := by
  obtain ⟨data, children⟩ := tree
  rw [subtrees_node] at hf
  obtain ⟨hhere, hbelow⟩ := List.forall_mem_cons.mp hf
  have hchildren := sheds_forestExpand hbelow
  rw [expand]
  split
  next answer hanswer => exact hhere answer hanswer
  next => exact hchildren.node rfl

/-- Replacing trees tells the openers that are taken out if every answer does. -/
theorem sheds_forestExpand {forest : Forest} (hf : ∀ below ∈ forest.subtrees, ∀ answer,
      f below = some answer → Forest.Sheds [below] answer.1 (Notice.removals answer.2)) :
    Forest.Sheds forest (forestExpand f forest).1 (Notice.removals (forestExpand f forest).2) := by
  cases forest with
  | nil => exact .refl []
  | cons tree rest =>
      rw [Forest.subtrees_cons] at hf
      obtain ⟨htree, hrest⟩ := List.forall_mem_append.mp hf
      have happend := (sheds_expand htree).append (sheds_forestExpand hrest)
      rwa [← Notice.removals_append] at happend

end

end Tree

/-! ## Links and embeds -/

section Brackets

variable {source : Source} {page forest : Forest}
  (hpage : ofLexemes source.lexemes = .ok page) (hforest : BracketsOf page forest)

include hpage hforest

theorem Forest.BracketsOf.opening_eq {tree : Tree} (hmem : tree ∈ forest.subtrees)
    {bracket : Bracket} (hkind : tree.kind = .aggregate (.bracket bracket)) :
    tree.data.opening = [tree.data.offset] :=
  (Tree.forestObeys_of_mem_subtrees (original_self hpage)
    (hforest tree hmem bracket hkind)).data.opening_eq hkind

/-- Links tell the openers of those that are taken out. -/
theorem Link.sheds_resolveExternals : Sheds forest (resolveExternals forest).1
    (Notice.removals (resolveExternals forest).2) := by
  refine Tree.sheds_forestExpand fun tree hmem answer hanswer => ?_
  obtain ⟨data, children⟩ := tree
  obtain ⟨hkind, hanswers⟩ := answers_of_resolveExternal? hanswer
  have hopening := hforest.opening_eq hpage hmem hkind
  cases hanswers with
  | removed =>
      have hgone : Sheds [.node data children] [] data.opening := (Sheds.nil children).gone
      rwa [show data.opening = [data.offset] from hopening] at hgone
  | leaf => exact .replaced rfl rfl

/-- Embeds tell the openers of those that are taken out. -/
theorem Embed.sheds_resolveAll (registries : Registries) :
    Sheds forest (resolveAll registries forest).1
      (Notice.removals (resolveAll registries forest).2) := by
  refine Tree.sheds_forestExpand fun tree hmem answer hanswer => ?_
  obtain ⟨data, children⟩ := tree
  obtain ⟨hkind, hanswers⟩ := answers_of_resolve? hanswer
  have hopening := hforest.opening_eq hpage hmem hkind
  cases hanswers with
  | removed =>
      have hgone : Sheds [.node data children] [] data.opening := (Sheds.nil children).gone
      rwa [show data.opening = [data.offset] from hopening] at hgone
  | @figure embed =>
      have hnone : Notice.removals (embed.usedWidth data.offset).2 = [] := by
        refine List.filterMap_eq_nil_iff.mpr fun notice hmem => ?_
        obtain ⟨width, -, rfl⟩ := eq_of_mem_usedWidth hmem
        rfl
      dsimp only
      rw [show (Tree.node data children).data.offset = data.offset from rfl, hnone]
      exact .replaced rfl rfl

end Brackets

/-! ## Headings and lowering -/

namespace Tree

mutual

theorem sheds_trimHeadings (tree : Tree) : Forest.Sheds [tree] [tree.trimHeadings] [] := by
  obtain ⟨data, children⟩ := tree
  have hchildren := sheds_forestTrimHeadings children
  rw [trimHeadings]
  split
  next => exact (hchildren.trans_nil (sheds_trimEdges _)).node rfl
  next => exact hchildren.node rfl

theorem sheds_forestTrimHeadings (forest : Forest) :
    Forest.Sheds forest (forestTrimHeadings forest) [] := by
  cases forest with
  | nil => exact .refl []
  | cons tree rest => exact (sheds_trimHeadings tree).append (sheds_forestTrimHeadings rest)

end

mutual

theorem sheds_slugHeadings (slugger : Slugger) (tree : Tree) :
    Forest.Sheds [tree] [(tree.slugHeadings slugger).1] [] := by
  obtain ⟨data, children⟩ := tree
  rw [slugHeadings]
  dsimp only
  split
  next => exact (sheds_forestSlugHeadings _ children).node rfl
  next => exact (sheds_forestSlugHeadings _ children).node rfl

theorem sheds_forestSlugHeadings (slugger : Slugger) (forest : Forest) :
    Forest.Sheds forest (forestSlugHeadings slugger forest).1 [] := by
  cases forest with
  | nil => exact .refl []
  | cons tree rest =>
      exact (sheds_slugHeadings slugger tree).append (sheds_forestSlugHeadings _ rest)

end

/-- A lowered node has the opener of the node. -/
theorem sheds_lowerNode (data : Node) {children lowered : Forest}
    (hchildren : Forest.Sheds children lowered []) :
    Forest.Sheds [.node data children] [lowerNode data lowered] [] := by
  have hlowers := lowers_lowerNode data lowered
  generalize lowerNode data lowered = tree at hlowers ⊢
  cases hlowers with
  | emBold => exact (hchildren.wrapped rfl).node rfl
  | _ => exact hchildren.node rfl

mutual

theorem sheds_lower (tree : Tree) : Forest.Sheds [tree] [tree.lower] [] := by
  obtain ⟨data, children⟩ := tree
  rw [lower]
  exact sheds_lowerNode data (sheds_forestLower children)

theorem sheds_forestLower (forest : Forest) : Forest.Sheds forest (forestLower forest) [] := by
  cases forest with
  | nil => exact .refl []
  | cons tree rest => exact (sheds_lower tree).append (sheds_forestLower rest)

end

end Tree

/-- Dropping blank headings tells the openers of what is taken out. -/
theorem Forest.Marked.sheds_dropBlankHeadings {page forest : Forest}
    (hforest : Marked page forest) :
    Sheds forest forest.dropBlankHeadings.1 (Notice.removals forest.dropBlankHeadings.2) := by
  have hsheds := (Tree.sheds_forestTrimHeadings forest).trans
    (sheds_removeWhere (fun tree => tree.isHeading && tree.isLeaf) _)
  refine hsheds.told ?_
  rw [List.nil_append]
  rw [dropBlankHeadings, Notice.removals, List.filterMap_flatMap]
  refine List.Sublist.flatMap_right _ fun removal hmem => ?_
  obtain ⟨⟨target, hremoved, htarget, hneeds⟩, hemptied⟩ := hforest.blank_removals removal hmem
  have hnotice : Notice.removals [target.data.emptyNotice] = target.data.opening :=
    Notice.removals_emptyNotice htarget.data hneeds
  have hrest := Removal.removals_notices hemptied
  rw [hremoved, Removal.taken, hremoved, Option.map_some, Option.toList_some, Option.toList_some,
    List.flatMap_singleton, ← hnotice, ← Notice.removals, Notice.removals_append]
  exact (List.Sublist.refl _).append hrest

end PageMarkup
