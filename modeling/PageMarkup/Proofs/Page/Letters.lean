import PageMarkup.Proofs.Tree.Census
import PageMarkup.Proofs.Line.Texts
import PageMarkup.Proofs.Page.Outline

/-! # Restructuring keeps the letters

White space comes and goes while a page is compiled, but what else its text holds does not
change when trees are pruned, merged, trimmed, grouped or lowered. The letters of a forest
are those of its trees one after the other, so each of these passes is a matter of what it
does to a list of neighbours: what it drops has no letters, and a node it puts around
trees or takes away from around them has none of its own.
-/

namespace PageMarkup

open Node Forest Html

/-- The characters of a text that are not white space. -/
def Text.letters (text : String) : List Char := text.toList.filter fun c => !Text.isBlank c

/-- The characters below a node that are not white space. -/
def Tree.letters (tree : Tree) : List Char := Text.letters tree.textContent

/-- The characters of a forest that are not white space. -/
def Forest.letters (forest : Forest) : List Char := Text.letters forest.textContent

/-- The tree of a page on its way to a document: the heading that shows the title, once it
is read, and the body, under the root. -/
def Draft.tree (draft : Draft) : Tree :=
  .node { kind := .documentRoot } ((draft.title.map PageTitle.heading).toList ++ draft.body)

namespace Text

theorem letters_append (first second : String) :
    letters (first ++ second) = letters first ++ letters second := by
  simp [letters]

theorem letters_eq_nil_iff {text : String} : letters text = [] ↔ isBlankText text = true := by
  simp [letters, isBlankText, List.filter_eq_nil_iff]

/-- Dropping white space at the start drops no letters. -/
theorem filter_dropWhile_isBlank (chars : List Char) :
    (chars.dropWhile isBlank).filter (fun c => !isBlank c) =
      chars.filter fun c => !isBlank c := by
  induction chars with
  | nil => rfl
  | cons c rest ih =>
      rw [List.dropWhile_cons]
      split
      next hblank => rw [ih, List.filter_cons_of_neg (by simp [hblank])]
      next => rfl

theorem letters_trimStart (text : String) : letters (trimStart text) = letters text := by
  rw [letters, trimStart, String.toList_ofList, filter_dropWhile_isBlank, letters]

theorem letters_trimEnd (text : String) : letters (trimEnd text) = letters text := by
  rw [letters, trimEnd, String.toList_ofList, dropTailWhile, List.filter_reverse,
    filter_dropWhile_isBlank, List.filter_reverse, List.reverse_reverse, letters]

end Text

namespace Node

/-- A node that can have children says nothing itself, and one that cannot has none. -/
structure Spoken (data : Node) (kinds : List Kind) : Prop where
  childless : data.kind.canHaveChildren = false → kinds = []
  silent : data.kind.canHaveChildren = true → data.literal = ""

/-- A node of a page before its notes are resolved: newlines are white space, and texts are
written as they are. -/
structure Legible (data : Node) (kinds : List Kind) : Prop extends Spoken data kinds where
  blank : data.kind = .newline → Text.isBlankText data.literal = true
  plain : data.kind = .text → data.element = none

theorem stable_spoken : Rule.Stable Spoken where
  fewer hdata hsubset := ⟨fun hkind => List.subset_nil.mp (hdata.childless hkind ▸ hsubset),
    hdata.silent⟩
  text {data _} _ htext hdata := ⟨hdata.childless, fun hkind => by
    rw [show data.kind.canHaveChildren = false from htext.canHaveChildren] at hkind
    cases hkind⟩
  span _ hdata := ⟨hdata.childless, hdata.silent⟩
  paragraph _ _ := ⟨nofun, fun _ => rfl⟩
  quote _ hkind hdata := ⟨fun hleaf => (by rw [hkind] at hleaf; cases hleaf), hdata.silent⟩

theorem stable_legible : Rule.Stable Legible where
  fewer hdata hsubset := ⟨stable_spoken.fewer hdata.toSpoken hsubset, hdata.blank, hdata.plain⟩
  text {data _} text htext hdata := ⟨stable_spoken.text text htext hdata.toSpoken,
    fun hkind => (by
      rcases htext with htext | htext <;> rw [show data.kind = .newline from hkind] at htext <;>
        cases htext),
    hdata.plain⟩
  span span hdata := ⟨stable_spoken.span span hdata.toSpoken, hdata.blank, hdata.plain⟩
  paragraph _ _ := ⟨⟨nofun, fun _ => rfl⟩, nofun, nofun⟩
  quote others hkind hdata :=
    ⟨stable_spoken.quote others hkind hdata.toSpoken, hdata.blank, hdata.plain⟩

end Node

/-! ## Letters of neighbours -/

/-- The letters that a tree has of its own, if it is a leaf. -/
def Tree.spoken (tree : Tree) : List Char :=
  if tree.isLeaf then Text.letters tree.data.literal else []

namespace Forest

mutual

theorem letters_leafTexts (tree : Tree) :
    Text.letters (String.join tree.leafTexts) = census Tree.spoken [tree] := by
  obtain ⟨data, children⟩ := tree
  cases children with
  | nil => simp [Tree.leafTexts, census_leaf, Tree.spoken, Tree.isLeaf]
  | cons child rest =>
      have hchildren := letters_forestLeafTexts (child :: rest)
      rw [census_cons, ← hchildren, census_nil, List.append_nil, Tree.leafTexts]
      rfl

/-- The letters of a forest are those of its leaves. -/
theorem letters_forestLeafTexts (forest : Forest) :
    Text.letters (String.join (Tree.forestLeafTexts forest)) = census Tree.spoken forest := by
  cases forest with
  | nil => rw [census_nil]; rfl
  | cons tree rest =>
      rw [Tree.forestLeafTexts, String.join_append, Text.letters_append, letters_leafTexts tree,
        letters_forestLeafTexts rest, ← census_singleton_append]

end

theorem letters_eq_census (forest : Forest) : forest.letters = census Tree.spoken forest :=
  letters_forestLeafTexts forest

theorem letters_singleton (tree : Tree) : letters [tree] = tree.letters :=
  (letters_eq_census [tree]).trans (letters_leafTexts tree).symm

@[simp]
theorem letters_nil : letters [] = [] := rfl

@[simp]
theorem letters_append (first second : Forest) :
    letters (first ++ second) = letters first ++ letters second := by
  simp only [letters_eq_census, census_append]

@[simp]
theorem letters_cons (tree : Tree) (rest : Forest) :
    letters (tree :: rest) = tree.letters ++ letters rest := by
  rw [← List.singleton_append, letters_append, letters_singleton]

/-- Trimming takes no letters from a text leaf. -/
theorem trims_spoken : Trims Tree.spoken := by
  have htext : ∀ (tree : Tree) (text : String), tree.isTextLeaf = true →
      (tree.withText text).spoken = Text.letters text := by
    rintro ⟨data, children⟩ text hleaf
    cases children with
    | nil =>
        rw [Tree.isTextLeaf, Bool.and_eq_true, Option.isNone_iff_eq_none] at hleaf
        have hliteral : { data with text }.literal = text := by rw [literal, hleaf.1]
        exact congrArg Text.letters hliteral
    | cons => cases hleaf
  have hself : ∀ tree : Tree, tree.isTextLeaf = true →
      tree.spoken = Text.letters tree.data.text := by
    rintro ⟨data, children⟩ hleaf
    exact htext (.node data children) data.text hleaf
  refine ⟨fun tree hleaf hblank => ?_, fun tree hleaf => ?_, fun tree hleaf => ?_⟩
  · rw [hself tree hleaf, Text.letters_eq_nil_iff.mpr hblank]
  · rw [htext tree _ hleaf, Text.letters_trimStart, hself tree hleaf]
  · rw [htext tree _ hleaf, Text.letters_trimEnd, hself tree hleaf]

theorem letters_trimEdges (forest : Forest) : forest.trimEdges.letters = forest.letters := by
  rw [letters_eq_census, letters_eq_census, census_trimEdges trims_spoken]

theorem letters_settle (data : Node) (children : Forest) :
    (settle data children).letters = children.letters := by
  rw [letters_eq_census, letters_eq_census, census_settle trims_spoken]

end Forest

namespace Tree

theorem letters_leaf (data : Node) : (node data []).letters = Text.letters data.literal := by
  simp [letters, textContent, leafTexts]

/-- The letters of a node that says nothing itself are those of its children. -/
theorem letters_node {data : Node} {kinds : List Kind} (hdata : Spoken data kinds)
    (hkind : data.kind.canHaveChildren = true) (children : Forest) :
    (node data children).letters = children.letters := by
  cases children with
  | nil => rw [letters_leaf, hdata.silent hkind]; rfl
  | cons => rfl

/-- Other children with the same letters make no difference to a node. -/
theorem letters_node_congr {data : Node} {kinds : List Kind} (hdata : Spoken data kinds)
    {children others : Forest} (hsame : others.letters = children.letters)
    (hnone : kinds = [] → others = children) :
    (node data others).letters = (node data children).letters := by
  cases hkind : data.kind.canHaveChildren with
  | false => rw [hnone (hdata.childless hkind)]
  | true => rw [letters_node hdata hkind, letters_node hdata hkind, hsame]

end Tree

/-! ## Pruning -/

namespace Tree

mutual

theorem letters_pruneEmpty {tree : Tree} (htree : tree.Obeys Spoken) :
    Forest.letters tree.pruneEmpty.1 = tree.letters := by
  obtain ⟨data, children⟩ := tree
  obtain ⟨hdata, hobeys⟩ := obeys_node.mp htree
  have hchildren := letters_forestPruneEmpty hobeys
  rw [pruneEmpty]
  dsimp only
  split
  next hempty =>
    obtain ⟨hneeds, hnil⟩ := hempty
    rw [List.isEmpty_iff.mp hnil] at hchildren
    have hkind : data.kind.canHaveChildren = true := by
      cases hkind : data.kind <;> rw [hkind] at hneeds <;> first | rfl | cases hneeds
    rw [letters_node hdata hkind, ← hchildren]
  next =>
    rw [letters_cons, letters_nil, List.append_nil]
    refine letters_node_congr hdata hchildren fun hnone => ?_
    rw [List.map_eq_nil_iff.mp hnone]
    rfl

/-- Empty aggregates have no letters. -/
theorem letters_forestPruneEmpty {forest : Forest} (hforest : forest.Obeys Spoken) :
    Forest.letters (forestPruneEmpty forest).1 = forest.letters := by
  cases forest with
  | nil => rfl
  | cons tree rest =>
      obtain ⟨htree, hrest⟩ := obeys_cons.mp hforest
      simp only [forestPruneEmpty, letters_append, letters_cons, letters_pruneEmpty htree,
        letters_forestPruneEmpty hrest]

end

end Tree

/-! ## Quotes and paragraphs -/

namespace Forest

theorem spoken_paragraph (span : Span) (children : Forest) :
    (Tree.node { kind := .paragraph, span } children).spoken = [] := by
  rw [Tree.spoken]
  split <;> rfl

/-- Quotes that are merged or dropped lose no letters. -/
theorem letters_mergeQuotes {forest : Forest} (hforest : forest.Obeys Spoken) :
    forest.mergeQuotes.letters = forest.letters := by
  rw [letters_eq_census, letters_eq_census]
  refine census_mergeQuotes trims_spoken spoken_paragraph ?_ stable_spoken hforest
  intro data kinds span children hdata hkind
  have hsilent : { data with span }.literal = "" := hdata.silent (by rw [hkind]; rfl)
  rw [Tree.spoken]
  split
  next => exact congrArg Text.letters hsilent
  next => rfl

/-- Newlines and blank texts have no letters. -/
theorem letters_of_blank {tree : Tree} (htree : tree.Obeys Legible)
    (hblank : (isNewline tree || isBlankText tree) = true) : census Tree.spoken [tree] = [] := by
  obtain ⟨data, children⟩ := tree
  obtain ⟨hdata, -⟩ := Tree.obeys_node.mp htree
  have hleaf : data.kind.canHaveChildren = false → Text.isBlankText data.literal = true →
      census Tree.spoken [.node data children] = [] := by
    intro hkind hliteral
    rw [← letters_eq_census, letters_singleton,
      show children = [] from List.map_eq_nil_iff.mp (hdata.childless hkind), Tree.letters_leaf,
      Text.letters_eq_nil_iff.mpr hliteral]
  rcases (Bool.or_eq_true _ _).mp hblank with hnewline | hblank
  · have hkind : data.kind = .newline := by simpa [isNewline] using hnewline
    exact hleaf (by rw [hkind]; rfl) (hdata.blank hkind)
  · obtain ⟨hkind, htext⟩ : data.kind = .text ∧ Text.isBlankText data.text = true := by
      simpa [isBlankText] using hblank
    refine hleaf (by rw [hkind]; rfl) ?_
    rw [literal, hdata.plain hkind]
    exact htext

/-- Newlines at the edges have no letters. -/
theorem letters_trimNewlines {forest : Forest} (hforest : forest.Obeys Legible) :
    forest.trimNewlines.letters = forest.letters := by
  rw [letters_eq_census, letters_eq_census, census_trimNewlines]
  intro tree hmem hnewline
  exact letters_of_blank (obeys_iff.mp hforest tree hmem) (by rw [hnewline, Bool.true_or])

/-- Paragraphs hold all letters that were between the newlines and the blocks. -/
theorem letters_paragraphs {forest : Forest} (hforest : forest.Obeys Legible) :
    forest.paragraphs.letters = forest.letters := by
  rw [letters_eq_census, letters_eq_census, census_paragraphs trims_spoken spoken_paragraph]
  exact fun tree hmem => letters_of_blank (obeys_iff.mp hforest tree hmem)

end Forest

/-! ## Lowering -/

namespace Tree

mutual

theorem letters_trimHeadings {tree : Tree} (htree : tree.Obeys Spoken) :
    tree.trimHeadings.letters = tree.letters := by
  obtain ⟨data, children⟩ := tree
  have hchildren := letters_forestTrimHeadings htree.children
  rw [trimHeadings]
  refine letters_node_congr htree.data ?_ fun hnone => ?_
  · split
    next => exact (letters_trimEdges _).trans hchildren
    next => exact hchildren
  · rw [children_node] at hnone
    rw [List.map_eq_nil_iff.mp hnone]
    split <;> rfl

theorem letters_forestTrimHeadings {forest : Forest} (hforest : forest.Obeys Spoken) :
    (forestTrimHeadings forest).letters = forest.letters := by
  cases forest with
  | nil => rfl
  | cons tree rest =>
      obtain ⟨htree, hrest⟩ := obeys_cons.mp hforest
      rw [forestTrimHeadings, letters_cons, letters_cons, letters_trimHeadings htree,
        letters_forestTrimHeadings hrest]

end

end Tree

namespace Forest

theorem canHaveChildren_of_goesWhenEmpty {data : Node} (hgoes : goesWhenEmpty data = true) :
    data.kind.canHaveChildren = true := by
  by_contra hkind
  have hkind := Kind.goesWhenEmpty_eq_false (by simpa using hkind)
  rw [show data.kind.goesWhenEmpty = true from hgoes] at hkind
  cases hkind

/-- Taking out the first tree without letters takes out no letters, whatever it empties. -/
theorem RemovesFirst.letters {p : Tree → Bool} {target : Tree} {forest : Forest}
    {removal : Removal} (hremoves : RemovesFirst p target forest removal)
    (hblank : ∀ tree : Tree, tree.Obeys Spoken → p tree = true → tree.letters = [])
    (hforest : forest.Obeys Spoken) : removal.rest.letters = forest.letters := by
  induction hremoves with
  | here before after _ htarget =>
      simp only [obeys_append, obeys_cons] at hforest
      simp [hblank target hforest.2.1 htarget]
  | deeper before after data children inner _ _ hinner _ ih =>
      simp only [obeys_append, obeys_cons, Tree.obeys_node] at hforest
      obtain ⟨-, ⟨hdata, hchildren⟩, -⟩ := hforest
      have hsame : (Tree.node data inner.rest).letters = (Tree.node data children).letters := by
        refine Tree.letters_node_congr hdata (ih hchildren) fun hnone => ?_
        have hkinds := hinner.kinds_subset
        rw [hnone] at hkinds
        rw [List.map_eq_nil_iff.mp hnone, List.map_eq_nil_iff.mp (List.subset_nil.mp hkinds)]
      simp [hsame]
  | settled before after data children inner _ _ hinner _ _ ih =>
      simp only [obeys_append, obeys_cons, Tree.obeys_node] at hforest
      obtain ⟨-, ⟨hdata, hchildren⟩, -⟩ := hforest
      have hsame : (Tree.node data (settle data inner.rest)).letters =
          (Tree.node data children).letters := by
        refine Tree.letters_node_congr hdata ((letters_settle data _).trans (ih hchildren))
          fun hnone => ?_
        have hkinds := List.Subset.trans (kinds_settle data inner.rest) hinner.kinds_subset
        rw [hnone] at hkinds
        rw [List.map_eq_nil_iff.mp hnone, List.map_eq_nil_iff.mp (List.subset_nil.mp hkinds)]
      simp [hsame]
  | emptied before after data children inner _ _ hinner _ hgoes hempty ih =>
      simp only [obeys_append, obeys_cons, Tree.obeys_node] at hforest
      obtain ⟨-, ⟨hdata, hchildren⟩, -⟩ := hforest
      have hnone : (Tree.node data children).letters = [] := by
        rw [Tree.letters_node hdata (canHaveChildren_of_goesWhenEmpty hgoes), ← ih hchildren,
          ← letters_settle data, hempty, letters_nil]
      simp [hnone]

/-- Taking out trees without letters takes out no letters. -/
theorem letters_removeWhere {p : Tree → Bool}
    (hgoes : ∀ tree, p tree = true → tree.kind.goesWhenEmpty = true)
    (hblank : ∀ tree : Tree, tree.Obeys Spoken → p tree = true → tree.letters = [])
    {forest : Forest} (hforest : forest.Obeys Spoken) :
    (removeWhere p forest).1.letters = forest.letters := by
  refine (removeWhere_invariant (P := fun rest =>
    rest.Obeys Spoken ∧ rest.letters = forest.letters) ?_ ⟨hforest, rfl⟩).2
  rintro target rest removal hremoves ⟨hrest, hsame⟩
  exact ⟨hremoves.obeys stable_spoken.wears hgoes hrest,
    (hremoves.letters hblank hrest).trans hsame⟩

/-- Lowering a page keeps its letters, whatever headings it takes out. -/
theorem letters_lowered {body : Forest} (hsound : body.Obeys (Sound embeddedKinds))
    (hmute : body.Obeys (Mute headingTags)) :
    body.dropBlankHeadings.1.slugHeadings.1.lower.letters = body.letters := by
  have hspoken : body.Obeys Spoken := Tree.forestObeys_mono
    (fun _ _ hdata => ⟨hdata.1.childless, hdata.2.literal_eq⟩) (Tree.forestObeys_and hsound hmute)
  have hkept : body.dropBlankHeadings.1.Obeys (Sound embeddedKinds) :=
    hsound.dropBlankHeadings (Rule.Stable.sound (by decide)).wears
      fun hdata _ => (Rule.Stable.sound (by decide)).fewer hdata
  have hkeptMute := hmute.mute_dropBlankHeadings
  have htrimmed : Forest.Obeys Spoken (Tree.forestTrimHeadings body) :=
    Tree.forestObeys_trimHeadings stable_spoken.wears
      (fun hdata _ => stable_spoken.fewer hdata) hspoken
  have hdropped : body.dropBlankHeadings.1.letters = body.letters := by
    rw [dropBlankHeadings]
    dsimp only
    rw [letters_removeWhere (fun _ => Tree.goesWhenEmpty_of_blank) ?_ htrimmed,
      Tree.letters_forestTrimHeadings hspoken]
    rintro ⟨data, children⟩ htree hblank
    have hgoes := Tree.goesWhenEmpty_of_blank hblank
    rw [Bool.and_eq_true] at hblank
    rw [Tree.letters_node (Tree.obeys_node.mp htree).1 (canHaveChildren_of_goesWhenEmpty hgoes),
      show children = [] from List.isEmpty_iff.mp hblank.2, letters_nil]
  have houtlined := hkept.outlined hkeptMute
  rw [← hdropped, letters, letters, textContent, textContent, lower,
    Tree.forestLeafTexts_lower houtlined, slugHeadings,
    Tree.forestLeafTexts_slugHeadings _ hkeptMute]

end Forest

/-! ## Passes -/

theorem Tree.Grammatical.legible {source : Source} {tree : Tree} (htree : tree.Grammatical)
    (hbuilt : tree.Obeys (Built source))
    (hnewlines : ∀ mark ∈ tree.reading, mark.kind = .newline →
      ∀ text ∈ mark.text, Text.isBlankText text = true) : tree.Obeys Legible := by
  induction htree with
  | leaf lexeme haggregate _ =>
      have hkind := Kind.canHaveChildren_of_raw (hbuilt.data.raw haggregate)
      refine obeys_leafOf ⟨⟨fun _ => rfl, fun hcan => ?_⟩, fun hnewline => ?_, fun _ => rfl⟩
      · rw [show (Nesting.leafOf lexeme).data.kind.canHaveChildren = _ from hkind] at hcan
        cases hcan
      · rw [reading_leafOf haggregate] at hnewlines
        exact hnewlines _ (List.mem_singleton_self _) hnewline _ rfl
  | aggregate aggregate opener closer children _ _ ih =>
      have hchildren := obeys_iff.mp (obeys_node.mp hbuilt).2
      refine obeys_node.mpr ⟨⟨⟨nofun, fun _ => rfl⟩, nofun, nofun⟩,
        obeys_iff.mpr fun child hchild => ih child hchild (hchildren child hchild) ?_⟩
      intro mark hmark
      refine hnewlines mark ?_
      rw [reading, forestReading_eq_flatMap]
      exact List.mem_append_left _
        (List.mem_append_right _ (List.mem_flatMap.mpr ⟨child, hchild, hmark⟩))

/-- Every mark of a forest matches one of the lexemes that it spells. -/
theorem Forest.Spells.exists_matches {body : Forest} {lexemes : List Lexeme}
    (hspells : body.Spells lexemes) {mark : Mark} (hmark : mark ∈ body.reading) :
    ∃ lexeme ∈ lexemes, mark.Matches lexeme := by
  obtain ⟨index, hindex, rfl⟩ := List.mem_iff_getElem.mp hmark
  have hsame := hspells.length_eq
  exact ⟨lexemes[index], List.getElem_mem _, hspells.get hindex (hsame ▸ hindex)⟩

/-- What a text nests into is legible. -/
theorem Source.legible_ofLexemes {text : String} {body : Forest}
    (hbody : ofLexemes (ofText text).lexemes = .ok body) : body.Obeys Legible := by
  obtain ⟨hgrammatical, hspells⟩ := (ofLexemes_eq_ok_iff (ofText text).isRaw_lexemes body).mp hbody
  have hbuilt := obeys_iff.mp (built_ofLexemes hbody)
  refine obeys_iff.mpr fun tree htree => (hgrammatical tree htree).legible (hbuilt tree htree) ?_
  intro mark hmem hnewline spelled hspelled
  have hreading : mark ∈ body.reading := by
    rw [reading, Tree.forestReading_eq_flatMap]
    exact List.mem_flatMap.mpr ⟨tree, htree, hmem⟩
  obtain ⟨lexeme, hlexeme, hkind, -, htext⟩ := hspells.exists_matches hreading
  rw [htext spelled hspelled]
  exact isBlankText_newline text lexeme hlexeme (hkind.symm.trans hnewline)

/-- The passes that restructure a page. -/
def Pass.restructuring : List Pass := [.prune, .blockquotes, .trim, .paragraphs, .lowering]

namespace Draft

variable {source : Source} {registries : Registries}

/-- The letters of a page are those of its title, once it is read, and those of its body. -/
theorem letters_tree (draft : Draft) : draft.tree.letters =
    Forest.letters (draft.title.map PageTitle.heading).toList ++ draft.body.letters := by
  have hroot : Spoken { kind := .documentRoot } [] := ⟨fun _ => rfl, fun _ => rfl⟩
  rw [tree, Tree.letters_node hroot rfl, letters_append]

theorem letters_tree_congr {draft next : Draft} (htitle : next.title = draft.title)
    (hbody : next.body.letters = draft.body.letters) : next.tree.letters = draft.tree.letters := by
  rw [letters_tree, letters_tree, htitle, hbody]

/-- The passes before that for notes keep every stable rule. -/
theorem obeys_of_run {rule : Rule} (hrule : rule.Stable) {pass : Pass} (hpass : pass ∈ beforeNotes)
    {draft next : Draft} {notices : List Notice} (hdraft : draft.body.Obeys rule)
    (hrun : pass.run source registries draft = .ok (next, notices)) : next.body.Obeys rule := by
  rcases List.mem_append.mp hpass with hfirst | hrearranging
  · simp only [List.mem_cons, List.not_mem_nil, or_false] at hfirst
    rcases hfirst with rfl | rfl | rfl
    · obtain ⟨-, rfl, -⟩ := validate_eq_ok hrun
      exact hdraft
    · cases hrun
      exact @Tree.forestObeys_pruneEmpty rule hrule.fewer draft.body hdraft
    · cases hrun
      exact hdraft.subset List.filter_sublist.subset
  · exact run_rearranging hrule hrearranging hdraft hrun

theorem obeys_of_runPasses {rule : Rule} (hrule : rule.Stable) {passes : List Pass}
    (hpasses : passes ⊆ beforeNotes) {draft final : Draft} (hdraft : draft.body.Obeys rule)
    (hrun : (runPasses source registries passes draft).2 = .ok final) : final.body.Obeys rule :=
  runPasses_invariant (P := fun draft => draft.body.Obeys rule)
    (fun _ hpass _ _ _ hearlier hnext => obeys_of_run hrule (hpasses hpass) hearlier hnext) hrun
    hdraft

/-- What lowering finds: all embeds are resolved, and text is held by leaves. -/
theorem sound_before_lowering {body : Forest} {draft : Draft}
    (hbody : Forest.ofLexemes source.lexemes = .ok body)
    (hrun : (runPasses source registries Pass.lowering.earlier { body }).2 = .ok draft) :
    draft.body.Obeys (Sound embeddedKinds) ∧ draft.body.Obeys (Mute headingTags) := by
  have hearlier : Pass.lowering.earlier =
      beforeNotes ++ [Pass.notes, .externalLinks, .embeddedFiles] := by decide
  rw [hearlier] at hrun
  obtain ⟨middle, hbefore, hrun⟩ := runPasses_append_eq_ok hrun
  have hsound := (sound_before_notes hbody hbefore).1
  have hmute : middle.body.Obeys (Mute headingTags) :=
    obeys_of_runPasses stable_mute (List.Subset.refl _) (mute_ofLexemes hbody) hbefore
  obtain ⟨noted, _, hnotes, hrun⟩ := runPasses_cons_eq_ok hrun
  obtain ⟨linked, _, hlinks, hrun⟩ := runPasses_cons_eq_ok hrun
  obtain ⟨embedded, _, hembeds, hrun⟩ := runPasses_cons_eq_ok hrun
  cases hnotes
  cases hlinks
  cases hembeds
  cases hrun
  exact ⟨Embed.sound_resolveAll registries (Link.sound_resolveExternals
    (Note.sound_resolve middle.definitions hsound)),
    ((Note.mute_resolve (by decide) middle.definitions hmute).mute_resolveExternals
      (by decide)).mute_resolveAll registries⟩

/-- Restructuring a page neither loses nor doubles nor moves any of its letters: each of
the passes ends, and it leaves the letters of the page as they are. -/
theorem letters_of_restructuring {text : String} {registries : Registries} {body : Forest}
    (hbody : Forest.ofLexemes (Source.ofText text).lexemes = .ok body) {pass : Pass}
    (hpass : pass ∈ Pass.restructuring) {draft : Draft}
    (hrun : (runPasses (Source.ofText text) registries pass.earlier { body }).2 = .ok draft) :
    ∃ next notices, pass.run (Source.ofText text) registries draft = .ok (next, notices) ∧
      next.tree.letters = draft.tree.letters := by
  have hlegible : pass.earlier ⊆ beforeNotes → draft.body.Obeys Legible := fun hsubset =>
    obeys_of_runPasses stable_legible hsubset (Source.legible_ofLexemes hbody) hrun
  have hspoken : draft.body.Obeys Legible → draft.body.Obeys Spoken :=
    Tree.forestObeys_mono fun _ _ hdata => hdata.toSpoken
  simp only [Pass.restructuring, List.mem_cons, List.not_mem_nil, or_false] at hpass
  rcases hpass with rfl | rfl | rfl | rfl | rfl
  · exact ⟨_, _, rfl, letters_tree_congr rfl
      (Tree.letters_forestPruneEmpty (hspoken (hlegible (by decide))))⟩
  · exact ⟨_, _, rfl, letters_tree_congr rfl (letters_mergeQuotes (hspoken (hlegible (by decide))))⟩
  · exact ⟨_, _, rfl, letters_tree_congr rfl (letters_trimNewlines (hlegible (by decide)))⟩
  · exact ⟨_, _, rfl, letters_tree_congr rfl (letters_paragraphs (hlegible (by decide)))⟩
  · obtain ⟨hsound, hmute⟩ := sound_before_lowering hbody hrun
    exact ⟨_, _, rfl, letters_tree_congr rfl (letters_lowered hsound hmute)⟩

/-- A page with a blank heading around a heading, quotes, and white space at many edges. -/
def lettersExample : String :=
  "!title T

>  a
> 
> *b*  

 
c ===d *e* ===

=== ==  == ===
==* *==
"

/-- Lowering takes both of its blank headings out and keeps the letters. -/
theorem letters_of_lowering_example :
    ∃ body draft next notices,
      Forest.ofLexemes (Source.ofText lettersExample).lexemes = .ok body ∧
      (runPasses (Source.ofText lettersExample) Registries.empty Pass.lowering.earlier
        { body }).2 = .ok draft ∧
      Pass.lowering.run (Source.ofText lettersExample) Registries.empty draft =
        .ok (next, notices) ∧
      next.tree.letters = draft.tree.letters := by
  have hok : ((Forest.ofLexemes (Source.ofText lettersExample).lexemes).bind fun body =>
      (runPasses (Source.ofText lettersExample) Registries.empty Pass.lowering.earlier
        { body }).2).isOk = true := by decide +kernel
  cases hbody : Forest.ofLexemes (Source.ofText lettersExample).lexemes with
  | error fault =>
      rw [hbody] at hok
      cases hok
  | ok body =>
      rw [hbody, Except.bind] at hok
      cases hrun : (runPasses (Source.ofText lettersExample) Registries.empty
          Pass.lowering.earlier { body }).2 with
      | error fault =>
          rw [hrun] at hok
          cases hok
      | ok draft =>
          obtain ⟨next, notices, hnext, hletters⟩ :=
            letters_of_restructuring hbody (by decide : .lowering ∈ Pass.restructuring) hrun
          exact ⟨body, draft, next, notices, rfl, hrun, hnext, hletters⟩

end Draft

end PageMarkup
