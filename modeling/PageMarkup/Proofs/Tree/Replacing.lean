import PageMarkup.Proofs.Tree.Rules
import PageMarkup.Tree.Lowering

/-! # Rules under replacement

Some passes put new nodes in the place of old ones, always where there may be nodes that
have children. A node around them gets children that can hold no more than the old ones,
and most rules bear that.
-/

namespace PageMarkup

/-- Every kind of the first list is of a kind of the second, or can hold less than one. -/
def Kind.Tamer (kinds others : List Kind) : Prop :=
  ∀ kind ∈ kinds, ∃ other ∈ others, kind.canHaveChildren → other.canHaveChildren

namespace Kind

theorem Tamer.of_subset {kinds others : List Kind} (hsubset : kinds ⊆ others) :
    Tamer kinds others :=
  fun kind hmem => ⟨kind, hsubset hmem, id⟩

theorem Tamer.refl (kinds : List Kind) : Tamer kinds kinds := .of_subset (List.Subset.refl _)

theorem Tamer.nil (others : List Kind) : Tamer [] others := .of_subset (List.nil_subset _)

theorem Tamer.append {first second others more : List Kind} (hfirst : Tamer first others)
    (hsecond : Tamer second more) : Tamer (first ++ second) (others ++ more) := by
  intro kind hmem
  rcases List.mem_append.mp hmem with hmem | hmem
  · obtain ⟨other, hother, hle⟩ := hfirst kind hmem
    exact ⟨other, List.mem_append_left _ hother, hle⟩
  · obtain ⟨other, hother, hle⟩ := hsecond kind hmem
    exact ⟨other, List.mem_append_right _ hother, hle⟩

theorem Tamer.cons {kind other : Kind} {kinds others : List Kind}
    (hkind : kind.canHaveChildren → other.canHaveChildren) (hkinds : Tamer kinds others) :
    Tamer (kind :: kinds) (other :: others) := by
  have hhead : Tamer [kind] [other] :=
    fun k hmem => ⟨other, by simp, by rwa [List.mem_singleton.mp hmem]⟩
  exact hhead.append hkinds

end Kind

theorem Kind.Tamer.nil_iff {kinds : List Kind} : Tamer kinds [] ↔ kinds = [] := by
  refine ⟨fun htame => ?_, fun hnil => hnil ▸ .refl []⟩
  cases kinds with
  | nil => rfl
  | cons kind rest =>
      obtain ⟨_, hmem, _⟩ := htame kind List.mem_cons_self
      cases hmem

/-- The rule bears children that can hold no more. -/
def Rule.Tame (rule : Rule) : Prop :=
  ∀ {data kinds others}, rule data others → Kind.Tamer kinds others → rule data kinds

variable {rule other : Rule}

namespace Tree

/-! ## Expanding -/

section Expand

variable {f : Tree → Option (Forest × List Notice)}

theorem forestExpand_append (first second : Forest) :
    forestExpand f (first ++ second) =
      ((forestExpand f first).1 ++ (forestExpand f second).1,
        (forestExpand f first).2 ++ (forestExpand f second).2) := by
  induction first with
  | nil => simp [forestExpand]
  | cons tree rest ih => simp only [List.cons_append, forestExpand, ih, List.append_assoc]

mutual

theorem kinds_expand
    (hf : ∀ tree answer, f tree = some answer → Kind.Tamer answer.1.kinds [tree.kind])
    (tree : Tree) : Kind.Tamer (expand f tree).1.kinds [tree.kind] := by
  obtain ⟨data, children⟩ := tree
  rw [expand]
  split
  next answer hanswer => exact hf _ answer hanswer
  next => exact .refl _

theorem kinds_forestExpand
    (hf : ∀ tree answer, f tree = some answer → Kind.Tamer answer.1.kinds [tree.kind])
    (forest : Forest) : Kind.Tamer (forestExpand f forest).1.kinds forest.kinds := by
  cases forest with
  | nil => exact .nil _
  | cons tree rest =>
      have happend := (kinds_expand hf tree).append (kinds_forestExpand hf rest)
      simpa [forestExpand, Forest.kinds] using happend

end

/-- A forest that gets no answer anywhere on its level keeps its kinds. -/
theorem kinds_forestExpand_of_none {forest : Forest} (hnone : ∀ tree ∈ forest, f tree = none) :
    (forestExpand f forest).1.kinds = forest.kinds := by
  induction forest with
  | nil => rfl
  | cons tree rest ih =>
      obtain ⟨htree, hrest⟩ := List.forall_mem_cons.mp hnone
      obtain ⟨data, children⟩ := tree
      have hhead : (expand f (.node data children)).1 = [.node data (forestExpand f children).1] := by
        rw [expand, htree]
      have hothers := ih hrest
      simp only [Forest.kinds] at hothers
      simp [forestExpand, hhead, Forest.kinds, hothers]

mutual

/-- Expanding leads from one rule to another if the answers obey the other one and so
does every node that gets no answer. -/
theorem Obeys.expand
    (hkept : ∀ data (children : Forest), f (.node data children) = none →
      rule data children.kinds → other data (forestExpand f children).1.kinds)
    (hanswer : ∀ tree answer, tree.Obeys rule → f tree = some answer → answer.1.Obeys other)
    {tree : Tree} (htree : tree.Obeys rule) : Forest.Obeys other (expand f tree).1 := by
  obtain ⟨data, children⟩ := tree
  have hchildren := forestObeys_expand hkept hanswer htree.children
  rw [Tree.expand]
  split
  next answer hsome => exact hanswer _ answer htree hsome
  next hnone =>
    exact Forest.obeys_cons.mpr
      ⟨obeys_node.mpr ⟨hkept data children hnone htree.data, hchildren⟩, Forest.obeys_nil⟩

theorem forestObeys_expand
    (hkept : ∀ data (children : Forest), f (.node data children) = none →
      rule data children.kinds → other data (forestExpand f children).1.kinds)
    (hanswer : ∀ tree answer, tree.Obeys rule → f tree = some answer → answer.1.Obeys other)
    {forest : Forest} (hforest : forest.Obeys rule) :
    Forest.Obeys other (forestExpand f forest).1 := by
  cases forest with
  | nil => exact Forest.obeys_nil
  | cons tree rest =>
      obtain ⟨htree, hrest⟩ := Forest.obeys_cons.mp hforest
      exact Forest.obeys_append.mpr
        ⟨htree.expand hkept hanswer, forestObeys_expand hkept hanswer hrest⟩

end

end Expand

/-! ## References -/

section References

variable {notes : List Note}

theorem kind_rewriteNoteRefs (seen : List String) (tree : Tree) :
    (tree.rewriteNoteRefs notes seen).1.kind.canHaveChildren →
      tree.kind.canHaveChildren := by
  obtain ⟨data, children⟩ := tree
  rw [rewriteNoteRefs]
  dsimp only
  split
  next href =>
    intro _
    rw [isNoteRef, beq_iff_eq] at href
    rw [href]
    rfl
  next => exact id

theorem kinds_forestRewriteNoteRefs (seen : List String) (forest : Forest) :
    Kind.Tamer (forestRewriteNoteRefs notes seen forest).1.kinds forest.kinds := by
  induction forest generalizing seen with
  | nil => exact .nil _
  | cons tree rest ih => exact (ih _).cons (kind_rewriteNoteRefs seen tree)

mutual

/-- Rewriting leads from one rule to another if the rewritten references obey the other
one and so does every node with its children rewritten. -/
theorem Obeys.rewriteNoteRefs
    (hkept : ∀ data (children : Forest) seen, rule data children.kinds →
      other data (forestRewriteNoteRefs notes seen children).1.kinds)
    (hmono : ∀ data kinds, rule data kinds → other data kinds)
    (hreference : ∀ (note : Note) index data kinds, data.kind = .aggregate (.bracket .noteRef) →
      rule data kinds → (note.referenceTree index data).Obeys other)
    (seen : List String) {tree : Tree} (htree : tree.Obeys rule) :
    (tree.rewriteNoteRefs notes seen).1.Obeys other := by
  obtain ⟨data, children⟩ := tree
  have hchildren := forestObeys_rewriteNoteRefs hkept hmono hreference seen htree.children
  rw [Tree.rewriteNoteRefs]
  dsimp only
  split
  next href =>
    split
    next => exact hreference _ _ _ _ (beq_iff_eq.mp href) htree.data
    next => exact htree.mono hmono
  next => exact obeys_node.mpr ⟨hkept data children seen htree.data, hchildren⟩

theorem forestObeys_rewriteNoteRefs
    (hkept : ∀ data (children : Forest) seen, rule data children.kinds →
      other data (forestRewriteNoteRefs notes seen children).1.kinds)
    (hmono : ∀ data kinds, rule data kinds → other data kinds)
    (hreference : ∀ (note : Note) index data kinds, data.kind = .aggregate (.bracket .noteRef) →
      rule data kinds → (note.referenceTree index data).Obeys other)
    (seen : List String) {forest : Forest} (hforest : forest.Obeys rule) :
    Forest.Obeys other (forestRewriteNoteRefs notes seen forest).1 := by
  cases forest with
  | nil => exact Forest.obeys_nil
  | cons tree rest =>
      obtain ⟨htree, hrest⟩ := Forest.obeys_cons.mp hforest
      exact Forest.obeys_cons.mpr
        ⟨htree.rewriteNoteRefs hkept hmono hreference seen,
          forestObeys_rewriteNoteRefs hkept hmono hreference _ hrest⟩

end

end References

/-! ## Headings -/

theorem kinds_forestTrimHeadings (forest : Forest) :
    (forestTrimHeadings forest).kinds = forest.kinds := by
  induction forest with
  | nil => rfl
  | cons tree rest ih =>
      obtain ⟨data, children⟩ := tree
      exact congrArg (data.kind :: ·) ih

mutual

theorem Obeys.trimHeadings (hrule : rule.Wears)
    (hheading : ∀ {data kinds others}, rule data others →
      data.kind.headingLevel?.isSome = true → kinds ⊆ others → rule data kinds)
    {tree : Tree} (htree : tree.Obeys rule) : tree.trimHeadings.Obeys rule := by
  obtain ⟨data, children⟩ := tree
  have hchildren := forestObeys_trimHeadings hrule hheading htree.children
  have hkinds := kinds_forestTrimHeadings children
  rw [Tree.trimHeadings, obeys_node]
  split
  next hlevel =>
    refine ⟨hheading htree.data hlevel ?_, hchildren.trimEdges hrule⟩
    exact hkinds ▸ Forest.kinds_trimEdges (forestTrimHeadings children)
  next => exact ⟨hkinds.symm ▸ htree.data, hchildren⟩

/-- Trimming headings keeps a rule that bears fewer children in a heading. -/
theorem forestObeys_trimHeadings (hrule : rule.Wears)
    (hheading : ∀ {data kinds others}, rule data others →
      data.kind.headingLevel?.isSome = true → kinds ⊆ others → rule data kinds)
    {forest : Forest} (hforest : forest.Obeys rule) :
    Forest.Obeys rule (forestTrimHeadings forest) := by
  cases forest with
  | nil => exact hforest
  | cons tree rest =>
      obtain ⟨htree, hrest⟩ := Forest.obeys_cons.mp hforest
      exact Forest.obeys_cons.mpr
        ⟨htree.trimHeadings hrule hheading, forestObeys_trimHeadings hrule hheading hrest⟩

end

theorem kinds_forestSlugHeadings (slugger : Slugger) (forest : Forest) :
    (forestSlugHeadings slugger forest).1.kinds = forest.kinds := by
  induction forest generalizing slugger with
  | nil => rfl
  | cons tree rest ih =>
      obtain ⟨data, children⟩ := tree
      have hhead : ((slugHeadings slugger (.node data children)).1).kind = data.kind := by
        rw [slugHeadings]
        split <;> rfl
      simp only [forestSlugHeadings, Forest.kinds, List.map_cons, hhead]
      exact congrArg (data.kind :: ·) (ih _)

mutual

/-- Giving ids to headings leads from one rule to another if the other one allows
headings with their new elements and all else as it was. -/
theorem Obeys.slugHeadings
    (hheading : ∀ data kinds level slug, rule data kinds → data.kind.headingLevel? = some level →
      other
        { data with
          element := some
            { tag := "h" ++ toString level.number, attributes := [("id", slug)] } } kinds)
    (hkept : ∀ data kinds, rule data kinds → data.kind.headingLevel? = none → other data kinds)
    (slugger : Slugger) {tree : Tree} (htree : tree.Obeys rule) :
    (tree.slugHeadings slugger).1.Obeys other := by
  obtain ⟨data, children⟩ := tree
  rw [Tree.slugHeadings]
  dsimp only
  split
  next level hlevel =>
    rw [obeys_node, kinds_forestSlugHeadings]
    exact ⟨hheading data _ level _ htree.data hlevel,
      forestObeys_slugHeadings hheading hkept _ htree.children⟩
  next hlevel =>
    rw [obeys_node, kinds_forestSlugHeadings]
    exact ⟨hkept data _ htree.data hlevel,
      forestObeys_slugHeadings hheading hkept _ htree.children⟩

theorem forestObeys_slugHeadings
    (hheading : ∀ data kinds level slug, rule data kinds → data.kind.headingLevel? = some level →
      other
        { data with
          element := some
            { tag := "h" ++ toString level.number, attributes := [("id", slug)] } } kinds)
    (hkept : ∀ data kinds, rule data kinds → data.kind.headingLevel? = none → other data kinds)
    (slugger : Slugger) {forest : Forest} (hforest : forest.Obeys rule) :
    Forest.Obeys other (forestSlugHeadings slugger forest).1 := by
  cases forest with
  | nil => exact Forest.obeys_nil
  | cons tree rest =>
      obtain ⟨htree, hrest⟩ := Forest.obeys_cons.mp hforest
      exact Forest.obeys_cons.mpr
        ⟨htree.slugHeadings hheading hkept slugger,
          forestObeys_slugHeadings hheading hkept _ hrest⟩

end

end Tree

/-! ## Lowering -/

/-- The tags that lowering gives to styles, quotes and paragraphs. -/
def Html.loweredTags : List String := ["i", "b", "s", "blockquote", "p"]

/-- A node of the kind gets an element with the tag. -/
inductive Kind.TakesTag : Kind → String → Prop where
  | em : TakesTag (.aggregate (.style .em)) "i"
  | emBold : TakesTag (.aggregate (.style .emBold)) "i"
  | bold : TakesTag (.aggregate (.style .bold)) "b"
  | strikethrough : TakesTag (.aggregate (.style .strikethrough)) "s"
  | blockquote : TakesTag (.aggregate (.line .blockquote)) "blockquote"
  | paragraph : TakesTag .paragraph "p"

namespace Kind.TakesTag

variable {kind : Kind} {tag : String}

theorem of_emBold (hkind : kind = .aggregate (.style .emBold)) : kind.TakesTag "i" := by
  rw [hkind]
  exact .emBold

theorem mem_loweredTags (htag : kind.TakesTag tag) : tag ∈ Html.loweredTags := by
  cases htag <;> decide

theorem canHaveChildren (htag : kind.TakesTag tag) : kind.canHaveChildren = true := by
  cases htag <;> rfl

theorem goesWhenEmpty (htag : kind.TakesTag tag) : kind.goesWhenEmpty = true := by
  cases htag <;> rfl

theorem headingLevel?_eq_none (htag : kind.TakesTag tag) : kind.headingLevel? = none := by
  cases htag <;> rfl

theorem ne_container (htag : kind.TakesTag tag) : kind ≠ .container := by
  cases htag <;> nofun

theorem ne_ready (htag : kind.TakesTag tag) : kind ≠ .ready := by
  cases htag <;> nofun

end Kind.TakesTag

/-- A node of the kind becomes text: it is no heading, gets no tag and is not done already. -/
structure Kind.BecomesText (kind : Kind) : Prop where
  ready : kind ≠ .ready
  container : kind ≠ .container
  heading : kind.headingLevel? = none
  untagged : ∀ tag, ¬kind.TakesTag tag

/-- Of the aggregates only brackets and directives become text. -/
theorem Kind.BecomesText.not_styled {kind : Kind} (hkind : kind.BecomesText) {aggregate : Aggregate}
    (hstyled : aggregate = .line .blockquote ∨ ∃ style, aggregate = .style style) :
    kind ≠ .aggregate aggregate := by
  rintro rfl
  rcases hstyled with rfl | ⟨style, rfl⟩
  · exact hkind.untagged _ .blockquote
  · cases style with
    | em => exact hkind.untagged _ .em
    | emBold => exact hkind.untagged _ .emBold
    | bold => exact hkind.untagged _ .bold
    | strikethrough => exact hkind.untagged _ .strikethrough
    | heading level => exact absurd hkind.heading (Option.some_ne_none level)

namespace Tree

/-- What becomes of a node whose children are lowered. -/
inductive Lowers (data : Node) (children : Forest) : Tree → Prop where
  | done (hkind : data.kind = .ready ∨ data.kind = .container) :
      Lowers data children (.node data children)
  | heading (level : HeadingLevel) (hkind : data.kind = .aggregate (.style (.heading level))) :
      Lowers data children (.node { data with kind := .container } children)
  | tagged {tag : String} (htag : data.kind.TakesTag tag)
      (hplain : data.kind ≠ .aggregate (.style .emBold)) :
      Lowers data children (tagged tag data children)
  | emBold (hkind : data.kind = .aggregate (.style .emBold)) :
      Lowers data children (tagged "i" data [container { tag := "b" } children])
  | text (hkind : data.kind.BecomesText) :
      Lowers data children (.node { data with kind := .ready, element := none } children)

theorem lowers_lowerNode (data : Node) (children : Forest) :
    Lowers data children (lowerNode data children) := by
  have htagged : ∀ {kind : Kind} {tag : String}, data.kind = kind → kind.TakesTag tag →
      kind ≠ .aggregate (.style .emBold) → Lowers data children (Tree.tagged tag data children) := by
    rintro _ tag rfl htag hplain
    exact .tagged htag hplain
  unfold lowerNode
  split
  next hkind => exact .done (.inl hkind)
  next hkind => exact .done (.inr hkind)
  next hkind => exact htagged hkind .em nofun
  next hkind => exact .emBold hkind
  next hkind => exact htagged hkind .bold nofun
  next hkind => exact htagged hkind .strikethrough nofun
  next level hkind => exact .heading level hkind
  next hkind => exact htagged hkind .blockquote nofun
  next hkind => exact htagged hkind .paragraph nofun
  next hready hcontainer hem hemBold hbold hstrike hheading hquote hparagraph =>
    refine .text ⟨hready, hcontainer, ?_, fun tag htag => ?_⟩
    · exact Option.eq_none_iff_forall_ne_some.mpr fun level hlevel =>
        hheading level (Kind.eq_heading_of_headingLevel? hlevel)
    · generalize data.kind = kind at *
      cases htag with
      | em => exact hem rfl
      | emBold => exact hemBold rfl
      | bold => exact hbold rfl
      | strikethrough => exact hstrike rfl
      | blockquote => exact hquote rfl
      | paragraph => exact hparagraph rfl

mutual

/-- Lowering leads from one rule to another if every lowered node obeys the other one. -/
theorem Obeys.lower
    (hlower : ∀ data kinds (lowered : Forest), rule data kinds →
      (kinds = [] → lowered = []) → lowered.Obeys other → (lowerNode data lowered).Obeys other)
    {tree : Tree} (htree : tree.Obeys rule) : tree.lower.Obeys other := by
  obtain ⟨data, children⟩ := tree
  rw [Tree.lower]
  refine hlower data _ _ htree.data (fun hnil => ?_) (forestObeys_lower hlower htree.children)
  obtain rfl : children = [] := List.map_eq_nil_iff.mp hnil
  rw [forestLower]

theorem forestObeys_lower
    (hlower : ∀ data kinds (lowered : Forest), rule data kinds →
      (kinds = [] → lowered = []) → lowered.Obeys other → (lowerNode data lowered).Obeys other)
    {forest : Forest} (hforest : forest.Obeys rule) :
    Forest.Obeys other (forestLower forest) := by
  cases forest with
  | nil => exact Forest.obeys_nil
  | cons tree rest =>
      obtain ⟨htree, hrest⟩ := Forest.obeys_cons.mp hforest
      exact Forest.obeys_cons.mpr ⟨htree.lower hlower, forestObeys_lower hlower hrest⟩

end

end Tree

/-- Rewriting keeps a rule that bears children that can hold no more. -/
theorem Rule.Tame.forestObeys_rewriteNoteRefs {notes : List Note} (htame : rule.Tame)
    (hreference : ∀ (note : Note) index data kinds, data.kind = .aggregate (.bracket .noteRef) →
      rule data kinds → (note.referenceTree index data).Obeys rule)
    {forest : Forest} (hforest : forest.Obeys rule) :
    Forest.Obeys rule (Tree.forestRewriteNoteRefs notes [] forest).1 :=
  Tree.forestObeys_rewriteNoteRefs
    (fun _ children seen hdata => htame hdata (Tree.kinds_forestRewriteNoteRefs seen children))
    (fun _ _ hdata => hdata) hreference [] hforest

end PageMarkup
