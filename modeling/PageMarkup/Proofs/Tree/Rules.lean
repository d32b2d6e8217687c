import PageMarkup.Block.Heading
import PageMarkup.Block.Paragraph
import PageMarkup.Block.Quote
import PageMarkup.Note.Basic
import PageMarkup.Proofs.Tree.Removal
import PageMarkup.Tree.Rewrite

/-! # Rules that rearranging keeps

A rule says what a node may be, given the kinds of its children. Most rules survive
when trees are taken out, trimmed or moved about, because that gives a node fewer
children of the kinds it had, or children that can hold less. What puts new nodes
in the place of others keeps a rule if the new nodes obey it.
-/

namespace PageMarkup

/-- What a node may be, given the kinds of its children. -/
abbrev Rule := Node → List Kind → Prop

/-- The kinds of the trees of a forest. -/
def Forest.kinds (forest : Forest) : List Kind := forest.map Tree.kind

mutual

/-- Every node of the tree obeys the rule. -/
def Tree.Obeys (rule : Rule) : Tree → Prop
  | .node data children => rule data (Forest.kinds children) ∧ Tree.ForestObeys rule children

/-- Every node of the forest obeys the rule. -/
def Tree.ForestObeys (rule : Rule) : Forest → Prop
  | [] => True
  | tree :: rest => Tree.Obeys rule tree ∧ Tree.ForestObeys rule rest

end

/-- Every node of the forest obeys the rule. -/
def Forest.Obeys (rule : Rule) (forest : Forest) : Prop := Tree.ForestObeys rule forest

/-- Whether a leaf of the kind may hold text that gets trimmed. -/
def Kind.IsText (kind : Kind) : Prop := kind = .text ∨ kind = .ready

theorem Kind.IsText.canHaveChildren {kind : Kind} (htext : kind.IsText) :
    kind.canHaveChildren = false := by
  rcases htext with rfl | rfl <;> rfl

/-- A rule that survives rearranging: it bears fewer children, another text of a text leaf and
another span, it allows plain paragraphs, and lets a quote have any children. -/
structure Rule.Stable (rule : Rule) : Prop where
  fewer : ∀ {data kinds others}, rule data others → kinds ⊆ others → rule data kinds
  text : ∀ {data kinds} text, data.kind.IsText →
    rule data kinds → rule { data with text } kinds
  span : ∀ {data kinds} span, rule data kinds → rule { data with span } kinds
  paragraph : ∀ span kinds, rule { kind := .paragraph, span } kinds
  quote : ∀ {data kinds} others, data.kind = .aggregate (.line .blockquote) →
    rule data kinds → rule data others

/-- Whether a node of the kind that loses a child goes as well once it has none left. -/
def Kind.goesWhenEmpty (kind : Kind) : Bool := kind == .paragraph || kind.needsChildren

theorem Kind.goesWhenEmpty_eq_false {kind : Kind} (hkind : kind.canHaveChildren = false) :
    kind.goesWhenEmpty = false := by
  cases kind <;> first | rfl | cases hkind

theorem Kind.eq_heading_of_headingLevel? {kind : Kind} {level : HeadingLevel}
    (hlevel : kind.headingLevel? = some level) : kind = .aggregate (.style (.heading level)) := by
  obtain ⟨aggregate, haggregate, hstyle⟩ := Option.bind_eq_some_iff.mp hlevel
  cases kind <;> cases haggregate
  cases aggregate with
  | style style => cases style <;> cases hstyle; rfl
  | bracket => cases hstyle
  | line => cases hstyle

theorem Kind.goesWhenEmpty_of_heading {kind : Kind} (hlevel : kind.headingLevel?.isSome = true) :
    kind.goesWhenEmpty = true := by
  obtain ⟨level, hlevel⟩ := Option.isSome_iff_exists.mp hlevel
  rw [eq_heading_of_headingLevel? hlevel]
  rfl

theorem Tree.goesWhenEmpty_of_blank {tree : Tree}
    (hblank : (tree.isHeading && tree.isLeaf) = true) : tree.kind.goesWhenEmpty = true :=
  Kind.goesWhenEmpty_of_heading (Bool.and_eq_true _ _ ▸ hblank).1

/-- A rule that survives taking trees out and trimming: it bears another text of a text leaf, and
that a node loses a child, unless the node has none left and should have gone itself. -/
structure Rule.Wears (rule : Rule) : Prop where
  text : ∀ {data kinds} text, data.kind.IsText →
    rule data kinds → rule { data with text } kinds
  loss : ∀ {data kinds others}, rule data others →
    (∃ kind ∈ others, kind.goesWhenEmpty = true) → kinds ⊆ others →
    (data.kind.goesWhenEmpty = true → kinds ≠ []) → rule data kinds

variable {rule : Rule}

theorem Rule.Stable.wears (hrule : rule.Stable) : rule.Wears where
  text := hrule.text
  loss hdata _ hsubset _ := hrule.fewer hdata hsubset

@[simp]
theorem Tree.obeys_node {data : Node} {children : Forest} :
    (Tree.node data children).Obeys rule ↔ rule data children.kinds ∧ children.Obeys rule := by
  rw [Tree.Obeys, Forest.Obeys]

namespace Forest

@[simp]
theorem obeys_nil : Obeys rule [] := by
  rw [Obeys, Tree.ForestObeys]
  trivial

@[simp]
theorem obeys_cons {tree : Tree} {rest : Forest} :
    Obeys rule (tree :: rest) ↔ tree.Obeys rule ∧ Obeys rule rest := by
  rw [Obeys, Tree.ForestObeys, Obeys]

-- Whether a forest obeys a rule is read off its trees, not computed from how it was made.
attribute [irreducible] Forest.Obeys

theorem obeys_iff {forest : Forest} :
    forest.Obeys rule ↔ ∀ tree ∈ forest, tree.Obeys rule := by
  induction forest with
  | nil => simp
  | cons tree rest ih => simp [ih]

@[simp]
theorem obeys_append {first second : Forest} :
    Obeys rule (first ++ second) ↔ Obeys rule first ∧ Obeys rule second := by
  simp [obeys_iff, or_imp, forall_and]

theorem Obeys.subset {kept forest : Forest} (hforest : Obeys rule forest)
    (hkept : kept ⊆ forest) : Obeys rule kept :=
  obeys_iff.mpr fun tree hmem => obeys_iff.mp hforest tree (hkept hmem)

theorem Obeys.reverse {forest : Forest} (hforest : Obeys rule forest) :
    Obeys rule forest.reverse :=
  hforest.subset fun _ hmem => List.mem_reverse.mp hmem

end Forest

theorem Tree.Obeys.data {tree : Tree} (htree : tree.Obeys rule) :
    rule tree.data tree.children.kinds := by
  obtain ⟨data, children⟩ := tree
  exact (Tree.obeys_node.mp htree).1

theorem Tree.Obeys.children {tree : Tree} (htree : tree.Obeys rule) :
    tree.children.Obeys rule := by
  obtain ⟨data, children⟩ := tree
  exact (Tree.obeys_node.mp htree).2

mutual

theorem Tree.Obeys.of_mem_subtrees {tree below : Tree} (htree : tree.Obeys rule)
    (hmem : below ∈ tree.subtrees) : below.Obeys rule := by
  obtain ⟨data, children⟩ := tree
  rw [Tree.subtrees_node] at hmem
  rcases List.mem_cons.mp hmem with rfl | hmem
  · exact htree
  · exact Tree.forestObeys_of_mem_subtrees htree.children hmem

theorem Tree.forestObeys_of_mem_subtrees {forest : Forest} {below : Tree}
    (hforest : forest.Obeys rule) (hmem : below ∈ forest.subtrees) : below.Obeys rule := by
  cases forest with
  | nil => simp at hmem
  | cons tree rest =>
      obtain ⟨htree, hrest⟩ := Forest.obeys_cons.mp hforest
      rw [Forest.subtrees_cons] at hmem
      rcases List.mem_append.mp hmem with hmem | hmem
      · exact htree.of_mem_subtrees hmem
      · exact Tree.forestObeys_of_mem_subtrees hrest hmem

end

mutual

theorem Tree.obeys_of_subtrees {tree : Tree}
    (hsubtrees : ∀ below ∈ tree.subtrees, rule below.data below.children.kinds) :
    tree.Obeys rule := by
  obtain ⟨data, children⟩ := tree
  rw [Tree.subtrees_node] at hsubtrees
  obtain ⟨hdata, hchildren⟩ := List.forall_mem_cons.mp hsubtrees
  exact Tree.obeys_node.mpr ⟨hdata, Tree.forestObeys_of_subtrees hchildren⟩

theorem Tree.forestObeys_of_subtrees {forest : Forest}
    (hsubtrees : ∀ below ∈ forest.subtrees, rule below.data below.children.kinds) :
    forest.Obeys rule := by
  cases forest with
  | nil => exact Forest.obeys_nil
  | cons tree rest =>
      rw [Forest.subtrees_cons] at hsubtrees
      obtain ⟨htree, hrest⟩ := List.forall_mem_append.mp hsubtrees
      exact Forest.obeys_cons.mpr
        ⟨Tree.obeys_of_subtrees htree, Tree.forestObeys_of_subtrees hrest⟩

end

mutual

theorem Tree.Obeys.mono {other : Rule} (himp : ∀ data kinds, rule data kinds → other data kinds)
    {tree : Tree} (htree : tree.Obeys rule) : tree.Obeys other := by
  obtain ⟨data, children⟩ := tree
  exact Tree.obeys_node.mpr ⟨himp _ _ htree.data, Tree.forestObeys_mono himp htree.children⟩

theorem Tree.forestObeys_mono {other : Rule}
    (himp : ∀ data kinds, rule data kinds → other data kinds) {forest : Forest}
    (hforest : forest.Obeys rule) : forest.Obeys other := by
  cases forest with
  | nil => exact Forest.obeys_nil
  | cons tree rest =>
      obtain ⟨htree, hrest⟩ := Forest.obeys_cons.mp hforest
      exact Forest.obeys_cons.mpr ⟨htree.mono himp, Tree.forestObeys_mono himp hrest⟩

end

theorem Tree.forestObeys_and {other : Rule} {forest : Forest} (hforest : forest.Obeys rule)
    (hother : forest.Obeys other) :
    forest.Obeys fun data kinds => rule data kinds ∧ other data kinds :=
  Tree.forestObeys_of_subtrees fun _ hmem =>
    ⟨(Tree.forestObeys_of_mem_subtrees hforest hmem).data,
      (Tree.forestObeys_of_mem_subtrees hother hmem).data⟩

namespace Forest

/-! ## Trimming -/

theorem kinds_trimFront (trimText : String → String) (forest : Forest) :
    (trimFront trimText forest).kinds <:+ forest.kinds := by
  induction forest with
  | nil => exact List.suffix_rfl
  | cons tree rest ih =>
      rw [trimFront]
      split
      next =>
        split
        next => exact ih.trans (List.suffix_cons _ _)
        next =>
          obtain ⟨data, children⟩ := tree
          exact List.suffix_rfl
      next => exact List.suffix_rfl

theorem kinds_trimEdges (forest : Forest) : forest.trimEdges.kinds ⊆ forest.kinds := by
  have hleading := (kinds_trimFront Text.trimStart forest).subset
  have htrailing := (kinds_trimFront Text.trimEnd forest.trimLeading.reverse).subset
  intro kind hmem
  simp only [trimEdges, trimTrailing, kinds, List.map_reverse, List.mem_reverse] at hmem
  have hmem := htrailing hmem
  simp only [kinds, List.map_reverse, List.mem_reverse] at hmem
  exact hleading hmem

theorem kinds_settle (data : Node) (children : Forest) :
    (settle data children).kinds ⊆ children.kinds := by
  unfold settle
  split
  next => exact kinds_trimEdges children
  next => exact List.Subset.refl _

theorem kinds_append_cons (before after : Forest) (tree : Tree) :
    kinds (before ++ tree :: after) = kinds before ++ tree.kind :: kinds after := by
  simp [kinds]

theorem isText_of_isTextLeaf {tree : Tree} (hleaf : tree.isTextLeaf = true) :
    tree.kind.IsText := by
  obtain ⟨data, children⟩ := tree
  cases children with
  | nil =>
      rw [Tree.isTextLeaf, Bool.and_eq_true, Bool.or_eq_true, beq_iff_eq, beq_iff_eq] at hleaf
      exact hleaf.2
  | cons => cases hleaf

variable (hrule : rule.Wears)
include hrule

theorem Obeys.trimFront (trimText : String → String) {forest : Forest}
    (hforest : Obeys rule forest) : Obeys rule (trimFront trimText forest) := by
  induction forest with
  | nil => exact hforest
  | cons tree rest ih =>
      obtain ⟨htree, hrest⟩ := obeys_cons.mp hforest
      rw [Forest.trimFront]
      split
      next hleaf =>
        split
        next => exact ih hrest
        next =>
          have hkind := isText_of_isTextLeaf hleaf
          obtain ⟨data, children⟩ := tree
          exact obeys_cons.mpr
            ⟨Tree.obeys_node.mpr ⟨hrule.text _ hkind htree.data, htree.children⟩, hrest⟩
      next => exact hforest

theorem Obeys.trimEdges {forest : Forest} (hforest : Obeys rule forest) :
    Obeys rule forest.trimEdges :=
  ((hforest.trimFront hrule _).reverse.trimFront hrule _).reverse

theorem Obeys.settle (data : Node) {children : Forest} (hchildren : Obeys rule children) :
    Obeys rule (settle data children) := by
  unfold Forest.settle
  split
  next => exact hchildren.trimEdges hrule
  next => exact hchildren

end Forest

/-! ## Taking trees out -/

namespace Forest

variable {p : Tree → Bool}

namespace RemovesFirst

variable {target : Tree} {forest : Forest} {removal : Removal}

theorem kinds_subset (hremoves : RemovesFirst p target forest removal) :
    removal.rest.kinds ⊆ forest.kinds := by
  cases hremoves with
  | here before after => simp [kinds]
  | deeper before after data => simp [kinds_append_cons, Tree.kind, Tree.data]
  | settled before after data => simp [kinds_append_cons, Tree.kind, Tree.data]
  | emptied before after data => simp [kinds]

/-- A tree of the forest that is gone is one that goes when it is empty. -/
theorem exists_goesWhenEmpty (hp : ∀ tree, p tree = true → tree.kind.goesWhenEmpty = true)
    (hremoves : RemovesFirst p target forest removal) (hcut : removal.cut = true) :
    ∃ kind ∈ forest.kinds, kind.goesWhenEmpty = true := by
  cases hremoves with
  | here before after _ htarget =>
      exact ⟨target.kind, by simp [kinds_append_cons], hp target htarget⟩
  | deeper _ _ _ _ _ _ _ _ huncut => rw [show _ = true from hcut] at huncut; cases huncut
  | settled => cases hcut
  | emptied before after data _ _ _ _ _ _ hgoes =>
      exact ⟨data.kind, by simp [kinds_append_cons], hgoes⟩

theorem kinds_of_uncut (hremoves : RemovesFirst p target forest removal)
    (huncut : removal.cut = false) : removal.rest.kinds = forest.kinds := by
  cases hremoves with
  | here => cases huncut
  | deeper before after data => simp [kinds_append_cons]
  | settled before after data => simp [kinds_append_cons]
  | emptied _ _ _ _ _ _ _ _ hcut => rw [show _ = false from huncut] at hcut; cases hcut

theorem obeys (hrule : rule.Wears)
    (hp : ∀ tree, p tree = true → tree.kind.goesWhenEmpty = true)
    (hremoves : RemovesFirst p target forest removal) (hforest : Obeys rule forest) :
    Obeys rule removal.rest := by
  induction hremoves with
  | here before after =>
      simp only [obeys_append, obeys_cons] at hforest ⊢
      exact ⟨hforest.1, hforest.2.2⟩
  | deeper before after data children inner _ _ hinner huncut ih =>
      simp only [obeys_append, obeys_cons, Tree.obeys_node] at hforest ⊢
      obtain ⟨hbefore, ⟨hdata, hchildren⟩, hafter⟩ := hforest
      exact ⟨hbefore, ⟨hinner.kinds_of_uncut huncut ▸ hdata, ih hchildren⟩, hafter⟩
  | settled before after data children inner _ _ hinner hcut hsettled ih =>
      simp only [obeys_append, obeys_cons, Tree.obeys_node] at hforest ⊢
      obtain ⟨hbefore, ⟨hdata, hchildren⟩, hafter⟩ := hforest
      have hkinds := List.Subset.trans (kinds_settle data inner.rest) hinner.kinds_subset
      have hleft : data.kind.goesWhenEmpty = true → (Forest.settle data inner.rest).kinds ≠ [] :=
        fun hgoes hnil => hsettled hgoes (List.map_eq_nil_iff.mp hnil)
      exact ⟨hbefore, ⟨hrule.loss hdata (hinner.exists_goesWhenEmpty hp hcut) hkinds hleft,
        (ih hchildren).settle hrule data⟩, hafter⟩
  | emptied before after =>
      simp only [obeys_append, obeys_cons] at hforest ⊢
      exact ⟨hforest.1, hforest.2.2⟩

end RemovesFirst

theorem Obeys.removeWhere (hrule : rule.Wears)
    (hp : ∀ tree, p tree = true → tree.kind.goesWhenEmpty = true) {forest : Forest}
    (hforest : Obeys rule forest) : Obeys rule (removeWhere p forest).1 :=
  removeWhere_invariant (fun hremoves hforest => hremoves.obeys hrule hp hforest) hforest

end Forest

namespace Tree

mutual

theorem kinds_pruneEmpty (tree : Tree) : tree.pruneEmpty.1.kinds ⊆ [tree.kind] := by
  obtain ⟨data, children⟩ := tree
  rw [pruneEmpty]
  dsimp only
  split
  next => exact List.nil_subset _
  next => exact List.Subset.refl _

theorem kinds_forestPruneEmpty (forest : Forest) :
    (forestPruneEmpty forest).1.kinds ⊆ forest.kinds := by
  cases forest with
  | nil => exact List.nil_subset _
  | cons tree rest =>
      have htree := kinds_pruneEmpty tree
      have hrest := kinds_forestPruneEmpty rest
      simp only [forestPruneEmpty, Forest.kinds, List.map_append, List.map_cons]
      exact List.append_subset.mpr
        ⟨List.Subset.trans htree (by simp), List.Subset.trans hrest (List.subset_cons_self _ _)⟩

end

mutual

theorem Obeys.pruneEmpty
    (hfewer : ∀ {data kinds others}, rule data others → kinds ⊆ others → rule data kinds)
    {tree : Tree} (htree : tree.Obeys rule) :
    Forest.Obeys rule tree.pruneEmpty.1 := by
  obtain ⟨data, children⟩ := tree
  have hchildren := forestObeys_pruneEmpty hfewer htree.children
  rw [Tree.pruneEmpty]
  dsimp only
  split
  next => exact Forest.obeys_nil
  next =>
    have hdata := hfewer htree.data (kinds_forestPruneEmpty children)
    exact Forest.obeys_cons.mpr ⟨Tree.obeys_node.mpr ⟨hdata, hchildren⟩, Forest.obeys_nil⟩

theorem forestObeys_pruneEmpty
    (hfewer : ∀ {data kinds others}, rule data others → kinds ⊆ others → rule data kinds)
    {forest : Forest}
    (hforest : forest.Obeys rule) : Forest.Obeys rule (forestPruneEmpty forest).1 := by
  cases forest with
  | nil => exact hforest
  | cons tree rest =>
      obtain ⟨htree, hrest⟩ := Forest.obeys_cons.mp hforest
      exact Forest.obeys_append.mpr ⟨htree.pruneEmpty hfewer, forestObeys_pruneEmpty hfewer hrest⟩

end

end Tree

namespace Forest

variable (hrule : rule.Stable)

theorem Obeys.trimNewlines {forest : Forest} (hforest : Obeys rule forest) :
    Obeys rule forest.trimNewlines := by
  refine hforest.subset fun tree hmem => ?_
  rw [Forest.trimNewlines, Text.dropTailWhile, List.mem_reverse] at hmem
  exact (List.dropWhile_subset _) (List.mem_reverse.mp ((List.dropWhile_subset _) hmem))

/-! ## Quotes and paragraphs -/

include hrule

theorem Obeys.quotedParagraph {line : Tree} (hline : line.Obeys rule) :
    Obeys rule (quotedParagraph line) := by
  unfold Forest.quotedParagraph
  dsimp only
  split
  next => exact obeys_nil
  next =>
    exact obeys_cons.mpr
      ⟨Tree.obeys_node.mpr ⟨hrule.paragraph _ _, hline.children.trimEdges hrule.wears⟩, obeys_nil⟩

theorem Obeys.prependQuote {line : Tree} (hquote : isQuote line = true)
    (hline : line.Obeys rule) {forest : Forest} (hforest : Obeys rule forest) :
    Obeys rule (prependQuote line forest) := by
  have hkind : line.data.kind = .aggregate (.line .blockquote) := by
    simpa [isQuote, Tree.kind] using hquote
  have hparagraph := Obeys.quotedParagraph hrule hline
  have hdata : ∀ kinds, rule line.data kinds := fun kinds => hrule.quote kinds hkind hline.data
  cases forest with
  | nil => exact obeys_cons.mpr ⟨Tree.obeys_node.mpr ⟨hdata _, hparagraph⟩, obeys_nil⟩
  | cons next rest =>
      obtain ⟨hnext, hrest⟩ := obeys_cons.mp hforest
      rw [Forest.prependQuote]
      split
      next =>
        exact obeys_cons.mpr
          ⟨Tree.obeys_node.mpr ⟨hrule.span _ (hdata _), obeys_append.mpr ⟨hparagraph, hnext.children⟩⟩,
            hrest⟩
      next => exact obeys_cons.mpr ⟨Tree.obeys_node.mpr ⟨hdata _, hparagraph⟩, hforest⟩

theorem Obeys.joinQuotes {forest : Forest} (hforest : Obeys rule forest) :
    Obeys rule (joinQuotes forest) := by
  induction forest with
  | nil => exact hforest
  | cons tree rest ih =>
      obtain ⟨htree, hrest⟩ := obeys_cons.mp hforest
      rw [Forest.joinQuotes]
      split
      next hquote => exact Obeys.prependQuote hrule hquote htree (ih hrest)
      next => exact obeys_cons.mpr ⟨htree, ih hrest⟩

theorem Obeys.mergeQuotes {forest : Forest} (hforest : Obeys rule forest) :
    Obeys rule forest.mergeQuotes :=
  (hforest.joinQuotes hrule).subset List.filter_sublist.subset

theorem Obeys.paragraphOf {run : Forest} (hrun : Obeys rule run) :
    Obeys rule (paragraphOf run) := by
  unfold Forest.paragraphOf
  split
  next => exact obeys_nil
  next =>
    exact obeys_cons.mpr
      ⟨Tree.obeys_node.mpr ⟨hrule.paragraph _ _, hrun.trimEdges hrule.wears⟩, obeys_nil⟩

theorem Obeys.paragraphsFrom {run forest : Forest} (hrun : Obeys rule run)
    (hforest : Obeys rule forest) : Obeys rule (paragraphsFrom run forest) := by
  induction forest generalizing run with
  | nil => exact hrun.reverse.paragraphOf hrule
  | cons tree rest ih =>
      obtain ⟨htree, hrest⟩ := obeys_cons.mp hforest
      have hparagraph := hrun.reverse.paragraphOf hrule
      rw [Forest.paragraphsFrom]
      split
      next => exact obeys_append.mpr ⟨hparagraph, ih obeys_nil hrest⟩
      next =>
        split
        next =>
          exact obeys_append.mpr ⟨hparagraph, obeys_cons.mpr ⟨htree, ih obeys_nil hrest⟩⟩
        next => exact ih (obeys_cons.mpr ⟨htree, hrun⟩) hrest

theorem Obeys.paragraphs {forest : Forest} (hforest : Obeys rule forest) :
    Obeys rule forest.paragraphs :=
  obeys_nil.paragraphsFrom hrule hforest

end Forest

end PageMarkup
