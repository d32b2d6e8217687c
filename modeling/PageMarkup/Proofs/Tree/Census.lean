import PageMarkup.Proofs.Tree.Replacing

/-! # What the nodes of a page add up to

A census joins what every node of a forest gives, in document order. Passes that take
nodes out, put others in their place or give them elements change a census only by what
they do to single nodes, as long as what is taken out gives nothing.
-/

namespace PageMarkup

namespace Forest

variable {α : Type} {f g : Tree → List α}

/-- What the subtrees of a forest give, in document order. -/
def census (f : Tree → List α) (forest : Forest) : List α := forest.subtrees.flatMap f

@[simp]
theorem census_nil : census f [] = [] := by simp [census]

theorem census_eq_nil {forest : Forest} (hf : ∀ tree ∈ forest.subtrees, f tree = []) :
    forest.census f = [] := List.flatMap_eq_nil_iff.mpr hf

@[simp]
theorem census_append (first second : Forest) :
    census f (first ++ second) = census f first ++ census f second := by
  simp [census]

theorem census_cons (data : Node) (children rest : Forest) :
    census f (.node data children :: rest) =
      f (.node data children) ++ (census f children ++ census f rest) := by
  rw [census, subtrees_cons, Tree.subtrees_node]
  simp [census]

theorem census_singleton_append (tree : Tree) (rest : Forest) :
    census f (tree :: rest) = census f [tree] ++ census f rest := by
  rw [← census_append, List.singleton_append]

theorem census_eq_flatMap (forest : Forest) :
    census f forest = forest.flatMap fun tree => census f [tree] := by
  induction forest with
  | nil => simp
  | cons tree rest ih => rw [census_singleton_append, ih, List.flatMap_cons]

theorem census_flatMap {β : Type} (g : β → Forest) (list : List β) :
    census f (list.flatMap g) = list.flatMap fun b => census f (g b) := by
  induction list with
  | nil => exact census_nil
  | cons b rest ih => rw [List.flatMap_cons, List.flatMap_cons, census_append, ih]

/-! ## Trimming -/

/-- A text leaf gives the same when it is trimmed, and nothing if it is blank. -/
structure Trims (f : Tree → List α) : Prop where
  blank : ∀ tree : Tree, tree.isTextLeaf = true → Text.isBlankText tree.data.text = true →
    f tree = []
  front : ∀ tree : Tree, tree.isTextLeaf = true →
    f (tree.withText (Text.trimStart tree.data.text)) = f tree
  back : ∀ tree : Tree, tree.isTextLeaf = true →
    f (tree.withText (Text.trimEnd tree.data.text)) = f tree

theorem isTextLeaf_withText (tree : Tree) (text : String) :
    (tree.withText text).isTextLeaf = tree.isTextLeaf := by
  obtain ⟨data, children⟩ := tree
  cases children <;> rfl

/-- What gives nothing for text leaves does not care how they are trimmed. -/
theorem Trims.of_textLeaf (hf : ∀ tree : Tree, tree.isTextLeaf = true → f tree = []) :
    Trims f where
  blank tree hleaf _ := hf tree hleaf
  front tree hleaf := by rw [hf tree hleaf, hf _ ((isTextLeaf_withText _ _).trans hleaf)]
  back tree hleaf := by rw [hf tree hleaf, hf _ ((isTextLeaf_withText _ _).trans hleaf)]

theorem flatMap_trimFront {trimText : String → String}
    (hblank : ∀ tree : Tree, tree.isTextLeaf = true → Text.isBlankText tree.data.text = true →
      f tree = [])
    (htrim : ∀ tree : Tree, tree.isTextLeaf = true →
      f (tree.withText (trimText tree.data.text)) = f tree)
    (forest : Forest) : (trimFront trimText forest).flatMap f = forest.flatMap f := by
  induction forest with
  | nil => rfl
  | cons tree rest ih =>
      rw [trimFront]
      split
      next hleaf =>
        split
        next hempty => rw [ih, List.flatMap_cons, hblank tree hleaf hempty, List.nil_append]
        next => rw [List.flatMap_cons, List.flatMap_cons, htrim tree hleaf]
      next => rfl

theorem flatMap_trimEdges (hf : Trims f) (forest : Forest) :
    forest.trimEdges.flatMap f = forest.flatMap f := by
  have hback : ∀ tree : Tree, tree.isTextLeaf = true →
      (List.reverse ∘ f) (tree.withText (Text.trimEnd tree.data.text)) = (List.reverse ∘ f) tree :=
    fun tree hleaf => congrArg List.reverse (hf.back tree hleaf)
  have hblank : ∀ tree : Tree, tree.isTextLeaf = true →
      Text.isBlankText tree.data.text = true → (List.reverse ∘ f) tree = [] :=
    fun tree hleaf hempty => congrArg List.reverse (hf.blank tree hleaf hempty)
  rw [trimEdges, trimTrailing, List.flatMap_reverse, flatMap_trimFront hblank hback,
    ← List.flatMap_reverse, List.reverse_reverse, trimLeading,
    flatMap_trimFront hf.blank hf.front]

theorem census_leaf (data : Node) : census f [.node data []] = f (.node data []) := by
  rw [census_cons, census_nil, List.nil_append, List.append_nil]

theorem Trims.census (hf : Trims f) : Trims fun tree => census f [tree] := by
  have hleaf : ∀ (tree : Tree) (text : String), tree.isTextLeaf = true →
      Forest.census f [tree.withText text] = f (tree.withText text) := by
    rintro ⟨data, children⟩ text hleaf
    cases children with
    | nil => exact census_leaf _
    | cons => cases hleaf
  have hself : ∀ tree : Tree, tree.isTextLeaf = true → Forest.census f [tree] = f tree := by
    rintro ⟨data, children⟩ hself
    exact hleaf (.node data children) data.text hself
  refine ⟨fun tree htext hblank => ?_, fun tree htext => ?_, fun tree htext => ?_⟩
  · rw [hself tree htext, hf.blank tree htext hblank]
  · rw [hleaf tree _ htext, hf.front tree htext, hself tree htext]
  · rw [hleaf tree _ htext, hf.back tree htext, hself tree htext]

theorem census_trimEdges (hf : Trims f) (forest : Forest) :
    census f forest.trimEdges = census f forest := by
  rw [census_eq_flatMap, census_eq_flatMap, flatMap_trimEdges hf.census]

theorem census_settle (hf : Trims f) (data : Node) (children : Forest) :
    census f (settle data children) = census f children := by
  unfold settle
  split
  next => exact census_trimEdges hf children
  next => rfl

/-! ## Grouping -/

/-- Trees that give nothing may be left out. -/
theorem census_filter {p : Tree → Bool} {forest : Forest}
    (hnothing : ∀ tree ∈ forest, p tree = false → census f [tree] = []) :
    census f (forest.filter p) = census f forest := by
  induction forest with
  | nil => rfl
  | cons tree rest ih =>
      obtain ⟨htree, hrest⟩ := List.forall_mem_cons.mp hnothing
      rw [census_singleton_append tree rest, ← ih hrest, List.filter_cons]
      split
      next => exact census_singleton_append tree _
      next hp => rw [htree (by simpa using hp), List.nil_append]

theorem flatMap_dropWhile {p : Tree → Bool} {forest : Forest}
    (hnothing : ∀ tree ∈ forest, p tree = true → f tree = []) :
    (forest.dropWhile p).flatMap f = forest.flatMap f := by
  induction forest with
  | nil => rfl
  | cons tree rest ih =>
      obtain ⟨htree, hrest⟩ := List.forall_mem_cons.mp hnothing
      rw [List.dropWhile_cons]
      split
      next hp => rw [ih hrest, List.flatMap_cons, htree hp, List.nil_append]
      next => rfl

/-- Newlines at the edges may be left out. -/
theorem census_trimNewlines {forest : Forest}
    (hnothing : ∀ tree ∈ forest, isNewline tree = true → census f [tree] = []) :
    census f forest.trimNewlines = census f forest := by
  have hreversed : ∀ tree ∈ (forest.dropWhile isNewline).reverse, isNewline tree = true →
      (List.reverse ∘ fun tree => census f [tree]) tree = [] := by
    intro tree hmem hnewline
    have hmem := List.dropWhile_subset _ (List.mem_reverse.mp hmem)
    exact congrArg List.reverse (hnothing tree hmem hnewline)
  rw [census_eq_flatMap, census_eq_flatMap forest, trimNewlines, Text.dropTailWhile,
    List.flatMap_reverse, flatMap_dropWhile hreversed, ← List.flatMap_reverse,
    List.reverse_reverse, flatMap_dropWhile hnothing]

section Paragraphs

variable (hf : Trims f) (hparagraph : ∀ span (children : Forest),
  f (.node { kind := .paragraph, span } children) = [])

include hf hparagraph

theorem census_quotedParagraph (line : Tree) :
    census f (quotedParagraph line) = census f line.children := by
  unfold quotedParagraph
  dsimp only
  split
  next hempty =>
    rw [← census_trimEdges hf line.children, List.isEmpty_iff.mp hempty]
  next =>
    rw [census_cons, hparagraph, census_trimEdges hf, census_nil, List.nil_append, List.append_nil]

theorem census_paragraphOf {run : Forest}
    (hblank : ∀ tree ∈ run, isBlankText tree = true → census f [tree] = []) :
    census f (paragraphOf run) = census f run := by
  unfold paragraphOf
  split
  next hall =>
    rw [census_eq_flatMap run, census_nil, eq_comm, List.flatMap_eq_nil_iff]
    exact fun tree hmem => hblank tree hmem (List.all_eq_true.mp hall tree hmem)
  next =>
    rw [census_cons, hparagraph, census_trimEdges hf, census_nil, List.nil_append, List.append_nil]

theorem census_paragraphsFrom {run forest : Forest}
    (hrun : ∀ tree ∈ run, isBlankText tree = true → census f [tree] = [])
    (hforest : ∀ tree ∈ forest,
      (isNewline tree || isBlankText tree) = true → census f [tree] = []) :
    census f (paragraphsFrom run forest) = census f (run.reverse ++ forest) := by
  induction forest generalizing run with
  | nil =>
      rw [paragraphsFrom, List.append_nil, census_paragraphOf hf hparagraph]
      exact fun tree hmem => hrun tree (List.mem_reverse.mp hmem)
  | cons tree rest ih =>
      obtain ⟨htree, hrest⟩ := List.forall_mem_cons.mp hforest
      have hnone : ∀ tree ∈ ([] : Forest), isBlankText tree = true → census f [tree] = [] :=
        List.forall_mem_nil _
      have hparagraphOf : census f (paragraphOf run.reverse) = census f run.reverse :=
        census_paragraphOf hf hparagraph fun tree hmem => hrun tree (List.mem_reverse.mp hmem)
      rw [paragraphsFrom, census_append, census_singleton_append tree rest]
      split
      next hnewline =>
        rw [census_append, hparagraphOf, ih hnone hrest,
          htree (by rw [hnewline, Bool.true_or]), List.nil_append, List.reverse_nil,
          List.nil_append]
      next =>
        split
        next =>
          rw [census_append, hparagraphOf, census_singleton_append tree, ih hnone hrest,
            List.reverse_nil, List.nil_append]
        next =>
          have hlonger : ∀ other ∈ tree :: run, isBlankText other = true →
              census f [other] = [] :=
            List.forall_mem_cons.mpr
              ⟨fun hblank => htree (by rw [hblank, Bool.or_true]), hrun⟩
          rw [ih hlonger hrest, List.reverse_cons, census_append, census_append,
            List.append_assoc]

/-- Paragraphs hold what was between the newlines and the blocks. -/
theorem census_paragraphs {forest : Forest}
    (hnothing : ∀ tree ∈ forest,
      (isNewline tree || isBlankText tree) = true → census f [tree] = []) :
    census f forest.paragraphs = census f forest :=
  census_paragraphsFrom hf hparagraph nofun hnothing

/-! ### Quotes -/

variable {rule : Rule} (hquote : ∀ data kinds span (children : Forest), rule data kinds →
  data.kind = .aggregate (.line .blockquote) → f (.node { data with span } children) = [])

include hquote

theorem census_prependQuote {line : Tree} (hline : line.Obeys rule)
    (hkind : isQuote line = true) {forest : Forest} (hforest : Obeys rule forest) :
    census f (prependQuote line forest) = census f [line] ++ census f forest := by
  have hnode : ∀ (tree : Tree) span (children : Forest), tree.Obeys rule → isQuote tree = true →
      census f [.node { tree.data with span } children] = census f children := by
    intro tree span children htree hkind
    rw [census_cons, hquote _ _ span children htree.data (by simpa [isQuote, Tree.kind] using hkind),
      census_nil, List.nil_append, List.append_nil]
  have hself : ∀ tree : Tree, tree.Obeys rule → isQuote tree = true →
      census f [tree] = census f tree.children := by
    rintro ⟨data, children⟩ htree hkind
    exact hnode _ data.span children htree hkind
  have hparagraphs := census_quotedParagraph hf hparagraph line
  have halone : census f [.node line.data (quotedParagraph line)] = census f [line] := by
    rw [hself line hline hkind, ← hparagraphs]
    exact hnode line line.data.span _ hline hkind
  cases forest with
  | nil => rw [prependQuote, halone, census_nil, List.append_nil]
  | cons next rest =>
      obtain ⟨hnext, -⟩ := obeys_cons.mp hforest
      rw [prependQuote]
      split
      next hkindNext =>
        rw [census_singleton_append, hnode line _ _ hline hkind, census_append, hparagraphs,
          census_singleton_append next, hself line hline hkind, hself next hnext hkindNext,
          List.append_assoc]
      next => rw [census_singleton_append, halone]

variable (hrule : rule.Stable)

include hrule

theorem census_joinQuotes {forest : Forest} (hforest : Obeys rule forest) :
    census f (joinQuotes forest) = census f forest := by
  induction forest with
  | nil => rfl
  | cons tree rest ih =>
      obtain ⟨htree, hrest⟩ := obeys_cons.mp hforest
      rw [joinQuotes, census_singleton_append tree rest]
      split
      next hkind =>
        rw [census_prependQuote hf hparagraph hquote htree hkind (hrest.joinQuotes hrule),
          ih hrest]
      next => rw [census_singleton_append, ih hrest]

/-- Merging quotes keeps a census to which quotes themselves give nothing. -/
theorem census_mergeQuotes {forest : Forest} (hforest : Obeys rule forest) :
    census f forest.mergeQuotes = census f forest := by
  rw [mergeQuotes, census_filter, census_joinQuotes hf hparagraph hquote hrule hforest]
  rintro ⟨data, children⟩ hmem hdropped
  obtain ⟨hkind, hempty⟩ : data.kind = .aggregate (.line .blockquote) ∧ children = [] := by
    simpa [isQuote, Tree.isLeaf] using hdropped
  have htree := obeys_iff.mp (hforest.joinQuotes hrule) _ hmem
  rw [hempty, census_leaf]
  exact hquote data _ data.span [] (Tree.obeys_node.mp htree).1 hkind

end Paragraphs

end Forest

/-! ## Taking trees out -/

/-- What a node gives depends on its kind and the kinds of its children. Text leaves and
nodes that go give nothing, and a node that stays gives the same without a child. -/
structure Rule.Spares {α : Type} (rule : Rule) (f : Tree → List α) : Prop where
  text : ∀ tree : Tree, tree.isTextLeaf = true → f tree = []
  same : ∀ data (children others : Forest), children.kinds = others.kinds →
    f (.node data children) = f (.node data others)
  gone : ∀ data (children : Forest), rule data children.kinds →
    (∃ kind ∈ children.kinds, kind.goesWhenEmpty = true) → data.kind.goesWhenEmpty = true →
    f (.node data children) = []
  kept : ∀ data (children others : Forest), rule data children.kinds →
    (∃ kind ∈ children.kinds, kind.goesWhenEmpty = true) →
    (data.kind.goesWhenEmpty = true → others ≠ []) →
    f (.node data children) = f (.node data others)

namespace Forest

variable {α : Type} {f : Tree → List α} {rule : Rule} {p : Tree → Bool}

namespace RemovesFirst

/-- What the tree that is taken out gives is cut out of what the forest gives. -/
theorem exists_census (hspares : rule.Spares f)
    (hp : ∀ tree, p tree = true → tree.kind.goesWhenEmpty = true)
    {target : Tree} {forest : Forest} {removal : Removal}
    (hremoves : RemovesFirst p target forest removal) (hforest : Obeys rule forest) :
    ∃ first last, census f forest = first ++ (census f [target] ++ last) ∧
      census f removal.rest = first ++ last := by
  induction hremoves with
  | here before after =>
      refine ⟨census f before, census f after, ?_, census_append before after⟩
      rw [census_append, census_singleton_append target]
  | deeper before after data children inner _ _ hinner huncut ih =>
      have hnode := (obeys_cons.mp (obeys_append.mp hforest).2).1
      obtain ⟨first, last, hwhole, hrest⟩ := ih hnode.children
      refine ⟨census f before ++ (f (.node data children) ++ first), last ++ census f after, ?_, ?_⟩
      · simp [census_cons, hwhole]
      · simp [census_cons, hrest, hspares.same data inner.rest children (hinner.kinds_of_uncut huncut)]
  | settled before after data children inner _ _ hinner hcut hsettled ih =>
      have hnode := (obeys_cons.mp (obeys_append.mp hforest).2).1
      have hkept := hspares.kept data children _ hnode.data (hinner.exists_goesWhenEmpty hp hcut)
        hsettled
      obtain ⟨first, last, hwhole, hrest⟩ := ih hnode.children
      refine ⟨census f before ++ (f (.node data children) ++ first), last ++ census f after, ?_, ?_⟩
      · simp [census_cons, hwhole]
      · simp [census_cons, hrest, census_settle (.of_textLeaf hspares.text), hkept]
  | emptied before after data children inner _ _ hinner hcut hgoes hempty ih =>
      have hnode := (obeys_cons.mp (obeys_append.mp hforest).2).1
      have hgone := hspares.gone data children hnode.data (hinner.exists_goesWhenEmpty hp hcut) hgoes
      have hnothing : census f inner.rest = [] := by
        rw [← census_settle (.of_textLeaf hspares.text) data, hempty, census_nil]
      obtain ⟨first, last, hwhole, hrest⟩ := ih hnode.children
      obtain ⟨rfl, rfl⟩ := List.append_eq_nil_iff.mp (hrest.symm.trans hnothing)
      refine ⟨census f before, census f after, ?_, census_append before after⟩
      simp [census_cons, hwhole, hgone]

/-- What is taken out is a subtree that satisfies the predicate. -/
theorem target_mem {target : Tree} {forest : Forest} {removal : Removal}
    (hremoves : RemovesFirst p target forest removal) : target ∈ forest.matching p := by
  induction hremoves with
  | here before after _ htarget => simp [matching_cons, htarget]
  | deeper _ _ _ _ _ _ _ _ _ ih => simp [matching_cons, ih]
  | settled _ _ _ _ _ _ _ _ _ _ ih => simp [matching_cons, ih]
  | emptied _ _ _ _ _ _ _ _ _ _ _ ih => simp [matching_cons, ih]

end RemovesFirst

/-- Trees that give nothing may be taken out. -/
theorem census_removeWhere (hrule : rule.Wears) (hspares : rule.Spares f)
    (hp : ∀ tree, p tree = true → tree.kind.goesWhenEmpty = true)
    (htarget : ∀ tree, tree.Obeys rule → p tree = true → census f [tree] = [])
    {forest : Forest} (hforest : Obeys rule forest) :
    census f (removeWhere p forest).1 = census f forest := by
  refine (removeWhere_invariant (P := fun rest =>
    Obeys rule rest ∧ census f rest = census f forest) ?_ ⟨hforest, rfl⟩).2
  rintro target rest removal hremoves ⟨hrest, hkept⟩
  obtain ⟨hmem, hholds⟩ := Forest.mem_matching.mp hremoves.target_mem
  obtain ⟨first, last, hwhole, hleft⟩ := hremoves.exists_census hspares hp hrest
  rw [htarget target (Tree.forestObeys_of_mem_subtrees hrest hmem) hholds, List.nil_append]
    at hwhole
  exact ⟨hremoves.obeys hrule hp hrest, hleft.trans (hwhole.symm.trans hkept)⟩

/-- A census that counts the subtrees that satisfy the predicate. -/
def marks (p : Tree → Bool) (tree : Tree) : List Unit := if p tree then [()] else []

theorem length_census_marks (p : Tree → Bool) (forest : Forest) :
    (census (marks p) forest).length = forest.subtrees.countP p := by
  rw [census]
  induction forest.subtrees with
  | nil => rfl
  | cons tree rest ih =>
      rw [List.flatMap_cons, List.length_append, ih, List.countP_cons, marks]
      split <;> simp [Nat.add_comm]

theorem marks_of_not_goes {tree : Tree} (hgoes : p tree = true → tree.kind.goesWhenEmpty = true)
    (hnot : tree.kind.goesWhenEmpty = false) : marks p tree = [] := by
  refine if_neg fun hholds => ?_
  rw [hgoes hholds] at hnot
  cases hnot

/-- Taking trees out neither empties nodes that should go when they are empty, nor fills any. -/
theorem spares_leaves {q : Kind → Bool} (hq : ∀ kind, q kind = true → kind.goesWhenEmpty = true)
    (rule : Rule) : rule.Spares (marks fun tree => q tree.kind && tree.isLeaf) where
  text tree hleaf := by
    exact marks_of_not_goes (fun hholds => hq _ (Bool.and_eq_true _ _ ▸ hholds).1)
      (Kind.goesWhenEmpty_eq_false (isText_of_isTextLeaf hleaf).canHaveChildren)
  same data children others hkinds := by
    have hempty : children.isEmpty = others.isEmpty := by
      cases children <;> cases others <;> first | rfl | cases hkinds
    simp [marks, Tree.isLeaf, hempty]
  gone data children _ hsome _ := by
    obtain ⟨kind, hmem, -⟩ := hsome
    cases children with
    | nil => cases hmem
    | cons child rest => exact if_neg (by simp [Tree.isLeaf])
  kept data children others _ hsome hleft := by
    obtain ⟨kind, hmem, -⟩ := hsome
    cases children with
    | nil => cases hmem
    | cons child rest =>
        have hnone : ∀ others : Forest, (data.kind.goesWhenEmpty = true → others ≠ []) →
            marks (fun tree => q tree.kind && tree.isLeaf) (.node data others) = [] := by
          intro others hleft
          refine if_neg fun hholds => ?_
          rw [Bool.and_eq_true, Tree.isLeaf, List.isEmpty_iff] at hholds
          exact hleft (hq _ hholds.1) hholds.2
        rw [hnone _ fun _ => List.cons_ne_nil _ _, hnone others hleft]

/-- If nothing around a tree that is taken out satisfies the predicate before or after,
nothing is left that does. -/
theorem lacks_removeWhere (hspares : Rule.Spares (fun _ _ => True) (marks p))
    (hp : ∀ tree, p tree = true → tree.kind.goesWhenEmpty = true)
    (hleaf : ∀ tree, p tree = true → tree.isLeaf = true) (forest : Forest) :
    Lacks p (removeWhere p forest).1 := by
  rw [removeWhere]
  generalize hcount : forest.subtrees.countP p = count
  induction count generalizing forest with
  | zero =>
      intro tree hmem
      simpa using List.countP_eq_zero.mp hcount tree hmem
  | succ count ih =>
      rw [removeTimes]
      split
      next hnone => exact Tree.forestFindPath?_eq_none hnone
      next path hfind =>
        obtain ⟨target, hremoves⟩ := removesFirst_of_findPath? hfind
        have hholds := (Forest.mem_matching.mp hremoves.target_mem).2
        have hall : Obeys (fun _ _ => True) forest :=
          Tree.forestObeys_of_subtrees fun _ _ => trivial
        obtain ⟨first, last, hwhole, hrest⟩ := hremoves.exists_census hspares hp hall
        have htarget : census (marks p) [target] = [()] := by
          have hchildren := hleaf target hholds
          obtain ⟨data, children⟩ := target
          obtain rfl : children = [] := List.isEmpty_iff.mp hchildren
          rw [census_cons, census_nil, marks, if_pos hholds]
          rfl
        have hlength := congrArg List.length hwhole
        have hleft := congrArg List.length hrest
        simp only [htarget, length_census_marks, List.length_append, List.length_singleton]
          at hlength hleft
        exact ih _ (by omega)

end Forest

namespace Tree

variable {α : Type} {rule other : Rule} {f g : Tree → List α}

/-! ## Trimming headings -/

mutual

theorem census_trimHeadings
    (hf : Forest.Trims f)
    (hsame : ∀ data (children others : Forest), children.kinds = others.kinds →
      f (.node data children) = f (.node data others))
    (hheading : ∀ data (children others : Forest), data.kind.headingLevel?.isSome = true →
      f (.node data children) = f (.node data others)) (tree : Tree) :
    Forest.census f [tree.trimHeadings] = Forest.census f [tree] := by
  obtain ⟨data, children⟩ := tree
  have hchildren := census_forestTrimHeadings hf hsame hheading children
  rw [trimHeadings, Forest.census_cons, Forest.census_cons]
  split
  next hlevel =>
    rw [hheading data _ children hlevel, Forest.census_trimEdges hf, hchildren]
  next => rw [hsame data _ children (kinds_forestTrimHeadings children), hchildren]

/-- Trimming headings keeps a census that takes no account of what they hold. -/
theorem census_forestTrimHeadings
    (hf : Forest.Trims f)
    (hsame : ∀ data (children others : Forest), children.kinds = others.kinds →
      f (.node data children) = f (.node data others))
    (hheading : ∀ data (children others : Forest), data.kind.headingLevel?.isSome = true →
      f (.node data children) = f (.node data others)) (forest : Forest) :
    Forest.census f (forestTrimHeadings forest) = Forest.census f forest := by
  cases forest with
  | nil => rfl
  | cons tree rest =>
      rw [forestTrimHeadings, Forest.census_singleton_append,
        census_trimHeadings hf hsame hheading tree,
        census_forestTrimHeadings hf hsame hheading rest, ← Forest.census_singleton_append]

end

/-- Taking blank headings out keeps a census that takes no account of what headings hold and
to which blank ones give nothing. -/
theorem census_dropBlankHeadings (hrule : rule.Wears)
    (hkept : ∀ {data kinds others}, rule data others →
      data.kind.headingLevel?.isSome = true → kinds ⊆ others → rule data kinds)
    (hspares : rule.Spares f)
    (hheading : ∀ data (children others : Forest), data.kind.headingLevel?.isSome = true →
      f (.node data children) = f (.node data others))
    (hblank : ∀ data, rule data [] → data.kind.headingLevel?.isSome = true →
      f (.node data []) = [])
    {body : Forest} (hbody : body.Obeys rule) :
    body.dropBlankHeadings.1.census f = body.census f := by
  rw [← census_forestTrimHeadings (.of_textLeaf hspares.text) hspares.same hheading body]
  refine Forest.census_removeWhere hrule hspares (fun _ => goesWhenEmpty_of_blank)
    (fun tree htree hdropped => ?_) (forestObeys_trimHeadings hrule hkept hbody)
  obtain ⟨hlevel, hleaf⟩ := (Bool.and_eq_true _ _).mp hdropped
  obtain ⟨data, children⟩ := tree
  obtain rfl : children = [] := List.isEmpty_iff.mp hleaf
  rw [Forest.census_leaf]
  exact hblank data htree.data hlevel

/-! ## Slugging headings -/

mutual

theorem census_slugHeadings
    (hslugged : ∀ data level slug (children others : Forest), rule data children.kinds →
      data.kind.headingLevel? = some level → others.kinds = children.kinds →
      g (.node
          { data with
            element := some
              { tag := "h" ++ toString level.number, attributes := [("id", slug)] } } others) =
        f (.node data children))
    (hkept : ∀ data (children others : Forest), rule data children.kinds →
      data.kind.headingLevel? = none → others.kinds = children.kinds →
      g (.node data others) = f (.node data children))
    (slugger : Slugger) {tree : Tree} (htree : tree.Obeys rule) :
    Forest.census g [(tree.slugHeadings slugger).1] = Forest.census f [tree] := by
  obtain ⟨data, children⟩ := tree
  obtain ⟨hdata, hchildren⟩ := obeys_node.mp htree
  rw [slugHeadings]
  dsimp only
  split
  next level hlevel =>
    rw [Forest.census_cons, Forest.census_cons,
      census_forestSlugHeadings hslugged hkept _ hchildren,
      hslugged data level _ children _ hdata hlevel (kinds_forestSlugHeadings _ children)]
    rfl
  next hlevel =>
    rw [Forest.census_cons, Forest.census_cons,
      census_forestSlugHeadings hslugged hkept _ hchildren,
      hkept data children _ hdata hlevel (kinds_forestSlugHeadings _ children)]
    rfl

/-- Slugging leads from one census to another if headings with their new elements give what
the headings gave, and so does all else. -/
theorem census_forestSlugHeadings
    (hslugged : ∀ data level slug (children others : Forest), rule data children.kinds →
      data.kind.headingLevel? = some level → others.kinds = children.kinds →
      g (.node
          { data with
            element := some
              { tag := "h" ++ toString level.number, attributes := [("id", slug)] } } others) =
        f (.node data children))
    (hkept : ∀ data (children others : Forest), rule data children.kinds →
      data.kind.headingLevel? = none → others.kinds = children.kinds →
      g (.node data others) = f (.node data children))
    (slugger : Slugger) {forest : Forest} (hforest : forest.Obeys rule) :
    Forest.census g (forestSlugHeadings slugger forest).1 = Forest.census f forest := by
  cases forest with
  | nil => rfl
  | cons tree rest =>
      obtain ⟨htree, hrest⟩ := Forest.obeys_cons.mp hforest
      rw [forestSlugHeadings]
      dsimp only
      rw [Forest.census_singleton_append, census_slugHeadings hslugged hkept _ htree,
        census_forestSlugHeadings hslugged hkept _ hrest, ← Forest.census_singleton_append]

end

/-! ## Expanding -/

section Expand

variable {h : Tree → Option (Forest × List Notice)} {Q : Notice → Prop}

mutual

/-- Expanding leads from one census to another if the answers give what was there before,
and so does every node that gets no answer. What all notices satisfy may be used of those
that come with an answer. -/
theorem census_expand
    (hanswer : ∀ tree answer, tree.Obeys rule → h tree = some answer →
      (∀ notice ∈ answer.2, Q notice) → Forest.census g answer.1 = Forest.census f [tree])
    (hnone : ∀ data (children : Forest), (node data children).Obeys rule →
      h (.node data children) = none →
      g (.node data (forestExpand h children).1) = f (.node data children))
    {tree : Tree} (htree : tree.Obeys rule) (hnotices : ∀ notice ∈ (expand h tree).2, Q notice) :
    Forest.census g (expand h tree).1 = Forest.census f [tree] := by
  obtain ⟨data, children⟩ := tree
  rw [expand] at hnotices ⊢
  split at hnotices
  next answer hsome => exact hanswer _ answer htree hsome hnotices
  next hempty =>
    have hchildren : Forest.census g (forestExpand h children).1 = Forest.census f children :=
      census_forestExpand hanswer hnone htree.children hnotices
    dsimp only
    rw [Forest.census_cons, Forest.census_cons, hnone data children htree hempty, hchildren]
    simp

theorem census_forestExpand
    (hanswer : ∀ tree answer, tree.Obeys rule → h tree = some answer →
      (∀ notice ∈ answer.2, Q notice) → Forest.census g answer.1 = Forest.census f [tree])
    (hnone : ∀ data (children : Forest), (node data children).Obeys rule →
      h (.node data children) = none →
      g (.node data (forestExpand h children).1) = f (.node data children))
    {forest : Forest} (hforest : forest.Obeys rule)
    (hnotices : ∀ notice ∈ (forestExpand h forest).2, Q notice) :
    Forest.census g (forestExpand h forest).1 = Forest.census f forest := by
  cases forest with
  | nil => simp [forestExpand]
  | cons tree rest =>
      obtain ⟨htree, hrest⟩ := Forest.obeys_cons.mp hforest
      obtain ⟨hfirst, hothers⟩ := List.forall_mem_append.mp hnotices
      rw [Forest.census_singleton_append, ← census_expand hanswer hnone htree hfirst,
        ← census_forestExpand hanswer hnone hrest hothers, ← Forest.census_append]
      rfl

end

end Expand

/-! ## Lowering -/

mutual

/-- Lowering leads from one census to another if every lowered node gives what the node
gave, besides what its lowered children give. -/
theorem census_lower
    (hlower : ∀ data (children lowered : Forest), rule data children.kinds →
      (children = [] ↔ lowered = []) →
      Forest.census g [lowerNode data lowered] = f (.node data children) ++ Forest.census g lowered)
    {tree : Tree} (htree : tree.Obeys rule) :
    Forest.census g [tree.lower] = Forest.census f [tree] := by
  obtain ⟨data, children⟩ := tree
  have hempty : children = [] ↔ forestLower children = [] := by
    cases children <;> simp [forestLower]
  have hchildren : Forest.census g (forestLower children) = Forest.census f children :=
    census_forestLower hlower htree.children
  rw [lower, hlower data children _ htree.data hempty, hchildren, Forest.census_cons,
    Forest.census_nil, List.append_nil]

theorem census_forestLower
    (hlower : ∀ data (children lowered : Forest), rule data children.kinds →
      (children = [] ↔ lowered = []) →
      Forest.census g [lowerNode data lowered] = f (.node data children) ++ Forest.census g lowered)
    {forest : Forest} (hforest : forest.Obeys rule) :
    Forest.census g (forestLower forest) = Forest.census f forest := by
  cases forest with
  | nil => rw [forestLower, Forest.census_nil, Forest.census_nil]
  | cons tree rest =>
      obtain ⟨htree, hrest⟩ := Forest.obeys_cons.mp hforest
      rw [forestLower, Forest.census_singleton_append, census_lower hlower htree,
        census_forestLower hlower hrest, ← Forest.census_singleton_append]

end

end Tree

end PageMarkup
