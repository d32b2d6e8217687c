import PageMarkup.Proofs.Likeness.Removal
import PageMarkup.Proofs.Note.Ids
import PageMarkup.Proofs.Page.Outcome

/-! # Likeness under notes

A reference to a note holds a single text at most, so references that are alike have the
same name. Directives that say the same then define the same notes. The same references
are taken out, the same ones become links, and the sections of notes are the same.
-/

namespace PageMarkup

open Node

/-- A text has no children, and a reference to a note has none but texts. -/
def Node.PlainName : Rule := fun data kinds =>
  (data.kind = .text → kinds = []) ∧
    (data.kind = .aggregate (.bracket .noteRef) → ∀ kind ∈ kinds, kind = .text)

theorem Rule.stable_plainName : Rule.Stable PlainName where
  fewer hdata hsubset :=
    ⟨fun htext => List.subset_nil.mp (hdata.1 htext ▸ hsubset),
      fun href kind hmem => hdata.2 href kind (hsubset hmem)⟩
  text _ _ hdata := hdata
  span _ hdata := hdata
  paragraph _ _ := ⟨nofun, nofun⟩
  quote _ hkind _ := ⟨by simp [hkind], by simp [hkind]⟩

/-- What the lexemes of a source nest into has plain names, if it passes the check. -/
theorem Forest.plainName_of_check {source : Source} {body : Forest}
    (hbody : Forest.ofLexemes source.lexemes = .ok body) (hcheck : body.check = .ok ()) :
    body.Obeys PlainName := by
  have hbuilt := Forest.built_ofLexemes hbody
  refine Tree.forestObeys_of_subtrees fun tree hmem => ⟨fun htext => ?_, fun href => ?_⟩
  · exact (Tree.forestObeys_of_mem_subtrees hbuilt hmem).data.childless (by rw [htext]; rfl)
  · obtain ⟨top, htop, hbelow⟩ := mem_subtrees.mp hmem
    have hplaced : ∃ atRoot, (atRoot, tree) ∈ body.placed := by
      obtain ⟨data, children⟩ := top
      rw [Tree.subtrees_node, List.mem_cons] at hbelow
      rcases hbelow with rfl | hbelow
      · exact ⟨true, List.mem_flatMap.mpr ⟨_, htop, List.mem_cons_self⟩⟩
      · exact ⟨false, List.mem_flatMap.mpr
          ⟨_, htop, List.mem_cons_of_mem _ (List.mem_map_of_mem hbelow)⟩⟩
    obtain ⟨atRoot, hplaced⟩ := hplaced
    have hright : ¬tree.WrongChildren := fun hwrong =>
      check_eq_ok_iff.mp hcheck _ hplaced _ (.children hwrong)
    intro kind hkind
    by_contra hne
    refine hright ⟨?_, ?_, ?_⟩
    · rw [Tree.kind, href]
      rfl
    · rintro hnil
      simp [hnil, kinds] at hkind
    · rintro ⟨child, hsingle, htext⟩
      rw [hsingle] at hkind
      simp only [kinds, List.map_cons, List.map_nil, List.mem_singleton] at hkind
      exact hne (hkind.trans htext)

/-- Directives that say the same, and whose argument stands for itself. -/
structure Directive.Like (L : Likeness) (directive other : Directive) : Prop where
  name : directive.name = other.name
  subname : directive.subname = other.subname
  argument : directive.argument = other.argument
  text : L.text directive.argument directive.argument
  place : L.placed → directive.offset = other.offset

variable {L : Likeness} {C : String → String → Prop}

/-! ## Names of references -/

/-- What may name a note stands for the same text. -/
theorem Node.Like.literal_of_named {data other : Node} (hlike : data.Like L C other)
    (hkind : data.kind = .text ∨ data.kind = .aggregate (.bracket .noteRef)) :
    data.literal = other.literal := by
  obtain ⟨htext, hnone⟩ := hlike.named hkind
  have hother := hlike.element_isNone
  rw [hnone, Option.isNone_none, eq_comm, Option.isNone_iff_eq_none] at hother
  simp only [Node.literal, hnone, hother, htext]

namespace Tree

variable {tree other : Tree} {forest others : Forest}

/-- Texts that are alike are the same. -/
theorem leafTexts_of_text (htree : tree.Obeys PlainName) (hlike : tree.Like L C other)
    (hkind : tree.kind = .text) : tree.leafTexts = other.leafTexts := by
  cases hlike with
  | @node data _ children _ hdata hchildren =>
      have hnil : children.kinds = [] := htree.data.1 hkind
      cases hchildren with
      | nil => rw [leafTexts, leafTexts, hdata.literal_of_named (.inl hkind)]
      | cons => cases hnil

theorem forestLeafTexts_of_texts (hforest : forest.Obeys PlainName)
    (hlike : Forest.Like L C forest others) (htexts : ∀ kind ∈ forest.kinds, kind = .text) :
    forestLeafTexts forest = forestLeafTexts others := by
  induction hlike with
  | nil => rfl
  | cons htree _ ih =>
      obtain ⟨hfirst, hrest⟩ := Forest.obeys_cons.mp hforest
      obtain ⟨hkind, hkinds⟩ := List.forall_mem_cons.mp htexts
      rw [forestLeafTexts, forestLeafTexts, leafTexts_of_text hfirst htree hkind,
        ih hrest hkinds]

namespace Like

theorem isNoteRef (hlike : tree.Like L C other) : tree.isNoteRef = other.isNoteRef := by
  simp only [Tree.isNoteRef, hlike.kind]

/-- References that are alike name the same note. -/
theorem noteName (htree : tree.Obeys PlainName) (hlike : tree.Like L C other)
    (href : tree.isNoteRef = true) : tree.noteName = other.noteName := by
  rw [Tree.isNoteRef, beq_iff_eq] at href
  refine congrArg (fun texts => Text.trim (String.join texts)) ?_
  cases hlike with
  | @node data _ children _ hdata hchildren =>
      have htexts : ∀ kind ∈ children.kinds, kind = .text := htree.data.2 href
      have hforest := forestLeafTexts_of_texts htree.children hchildren htexts
      cases hchildren with
      | nil => rw [Tree.leafTexts, Tree.leafTexts, hdata.literal_of_named (.inr href)]
      | cons => exact hforest

end Like

theorem agrees_refersTo (name : String) : Agrees L C PlainName (refersTo name) := by
  intro tree other htree hlike
  rw [refersTo, refersTo, ← hlike.isNoteRef]
  cases href : tree.isNoteRef with
  | false => simp only [Bool.false_and]
  | true => rw [hlike.noteName htree href]

end Tree

namespace Note

variable {forest other : Forest}

theorem like_references (hforest : forest.Obeys PlainName) (hlike : Forest.Like L C forest other) :
    Forest.Like L C forest.references other.references :=
  Tree.forestLike_matching (fun _ hlike => hlike.isNoteRef) hforest hlike

/-- Forests that are alike refer to the same names. -/
theorem like_referenceNames (hforest : forest.Obeys PlainName)
    (hlike : Forest.Like L C forest other) : referenceNames forest = referenceNames other := by
  have hreferences := like_references hforest hlike
  have hmem : ∀ tree ∈ forest.references, tree.isNoteRef = true ∧ tree.Obeys PlainName :=
    fun tree hmem => ⟨(Forest.mem_matching.mp hmem).2,
      Tree.forestObeys_of_mem_subtrees hforest (Forest.mem_matching.mp hmem).1⟩
  rw [Forest.referenceNames_eq, Forest.referenceNames_eq]
  generalize forest.references = references, other.references = others at hreferences hmem
  induction hreferences with
  | nil => rfl
  | cons htree _ ih =>
      obtain ⟨⟨href, hobeys⟩, hmem⟩ := List.forall_mem_cons.mp hmem
      rw [List.map_cons, List.map_cons, ih hmem, htree.noteName hobeys href]

/-- Every name that is referred to stands for itself. -/
theorem text_of_mem_referenceNames (hforest : forest.Obeys PlainName)
    (hlike : Forest.Like L L.text forest other) :
    ∀ name ∈ referenceNames forest, L.text name name := by
  have hreferences := like_references hforest hlike
  have hmem : ∀ tree ∈ forest.references, tree.isNoteRef = true ∧ tree.Obeys PlainName :=
    fun tree hmem => ⟨(Forest.mem_matching.mp hmem).2,
      Tree.forestObeys_of_mem_subtrees hforest (Forest.mem_matching.mp hmem).1⟩
  rw [Forest.referenceNames_eq]
  generalize forest.references = references, other.references = others at hreferences hmem
  induction hreferences with
  | nil => nofun
  | cons htree _ ih =>
      obtain ⟨⟨href, hobeys⟩, hmem⟩ := List.forall_mem_cons.mp hmem
      have htext := L.trim htree.textContent
      rw [← Tree.noteName, ← Tree.noteName, ← htree.noteName hobeys href] at htext
      exact List.forall_mem_cons.mpr ⟨htext, ih hmem⟩

/-! ## Definitions -/

variable {definitions definitions' : List Directive}

theorem like_find? (hlike : List.Forall₂ (Directive.Like L) definitions definitions')
    (name : String) :
    (definitions.find? (·.subname == name)).map Directive.argument =
      (definitions'.find? (·.subname == name)).map Directive.argument := by
  induction hlike with
  | nil => rfl
  | cons hdefinition _ ih =>
      rw [List.find?_cons, List.find?_cons, ← hdefinition.subname]
      split
      · rw [Option.map_some, Option.map_some, hdefinition.argument]
      · exact ih

theorem like_any (hlike : List.Forall₂ (Directive.Like L) definitions definitions')
    (name : String) :
    definitions.any (·.subname == name) = definitions'.any (·.subname == name) := by
  have hsome := congrArg Option.isSome (like_find? hlike name)
  rwa [Option.isSome_map, Option.isSome_map, List.isSome_find?, List.isSome_find?] at hsome

theorem like_definitionWarnings
    (hlike : List.Forall₂ (Directive.Like L) definitions definitions')
    (names earlier : List String) :
    Notice.Like L (definitionWarnings names earlier definitions)
      (definitionWarnings names earlier definitions') := by
  intro hplaced
  induction hlike generalizing earlier with
  | nil => rfl
  | cons hdefinition _ ih =>
      rw [definitionWarnings, definitionWarnings, ih, definitionWarning?, definitionWarning?,
        hdefinition.subname, hdefinition.place hplaced]

theorem like_collect (hlike : List.Forall₂ (Directive.Like L) definitions definitions')
    (references names : List String) :
    collect references definitions names = collect references definitions' names := by
  have hpairs : ∀ name,
      ((definitions.find? (·.subname == name)).map fun definition => (name, definition.argument)) =
        (definitions'.find? (·.subname == name)).map
          fun definition => (name, definition.argument) := by
    intro name
    have hpair := congrArg (Option.map (Prod.mk name)) (like_find? hlike name)
    rwa [Option.map_map, Option.map_map] at hpair
  simp only [collect, hpairs]

/-- The texts of a note stand for themselves. -/
def Stands (L : Likeness) (note : Note) : Prop :=
  L.text note.name note.name ∧ L.text note.definition note.definition

theorem stands_of_mem_collect (hlike : List.Forall₂ (Directive.Like L) definitions definitions')
    {references names : List String} (hnames : ∀ name ∈ names, L.text name name) :
    ∀ note ∈ collect references definitions names, note.Stands L := by
  intro note hnote
  obtain ⟨⟨⟨name, argument⟩, anchor⟩, hzip, rfl⟩ := List.mem_map.mp hnote
  obtain ⟨name', hname, hpair⟩ := List.mem_filterMap.mp (List.of_mem_zip hzip).1
  obtain ⟨definition, hfind, heq⟩ := Option.map_eq_some_iff.mp hpair
  cases heq
  refine ⟨hnames name hname, ?_⟩
  have hdefinition := List.mem_of_find?_eq_some hfind
  clear hnote hzip hpair hfind
  induction hlike with
  | nil => cases hdefinition
  | cons hfirst _ ih =>
      rcases List.mem_cons.mp hdefinition with rfl | hdefinition
      · exact hfirst.text
      · exact ih hdefinition

/-! ## References -/

/-- The same references are taken out. -/
theorem like_dropUndefined (names : List String) (hforest : forest.Obeys PlainName)
    (hlike : Forest.Like L C forest other) :
    Forest.Like L C (dropUndefined names forest).1 (dropUndefined names other).1 ∧
      Notice.Like L (dropUndefined names forest).2 (dropUndefined names other).2 := by
  induction names generalizing forest other with
  | nil => exact ⟨hlike, Notice.like_nil⟩
  | cons name names ih =>
      have hwears := Rule.stable_plainName.wears
      have hgoes : ∀ tree, Tree.refersTo name tree = true → tree.kind.goesWhenEmpty = true :=
        fun _ => Tree.goesWhenEmpty_of_refersTo
      have hagrees : Tree.Agrees L C PlainName (Tree.refersTo name) := Tree.agrees_refersTo name
      obtain ⟨hrest, hremovals⟩ := hlike.removeWhere hwears hagrees hgoes hforest
      obtain ⟨hkept, hnotices⟩ := ih (hforest.removeWhere hwears hgoes) hrest
      refine ⟨hkept, Notice.Like.append ?_ hnotices⟩
      have hfirst : Notice.Like L
          [⟨.noteUndefined name,
            (forest.subtrees.find? (Tree.refersTo name)).map (·.data.offset)⟩]
          [⟨.noteUndefined name,
            (other.subtrees.find? (Tree.refersTo name)).map (·.data.offset)⟩] := by
        intro hplaced
        have hmatching := Tree.forestLike_matching hagrees hforest hlike
        rw [← List.head?_filter, ← List.head?_filter, ← Forest.matching, ← Forest.matching]
        generalize Forest.matching _ forest = found, Forest.matching _ other = found'
          at hmatching
        cases hmatching with
        | nil => rfl
        | cons htree _ => simp only [List.head?_cons, Option.map_some, htree.data.offset hplaced]
      exact hfirst.append (Removal.like_notices hremovals)

theorem plain_backlinkLetters (index : Nat) :
    ∀ c ∈ (backlinkLetters index).toList, c ≠ '\r' ∧ c ≠ '\n' := by
  have hletter : ∀ position, letterAt position ≠ '\r' ∧ letterAt position ≠ '\n' := by
    intro position
    have hnat := toNat_letterAt position
    constructor <;> intro heq <;> rw [heq] at hnat <;> simp at hnat <;> omega
  have hletters : ∀ c ∈ backwardLetters index, c ≠ '\r' ∧ c ≠ '\n' := by
    induction index using Nat.strong_induction_on with
    | _ index ih =>
        rcases Nat.lt_or_ge index 26 with hindex | hindex
        · rw [backwardLetters_of_lt hindex]
          simpa using hletter index
        · rw [backwardLetters_of_le hindex]
          exact List.forall_mem_cons.mpr ⟨hletter index, ih _ (by omega)⟩
  simpa [backlinkLetters] using hletters

/-- A reference becomes the same link. -/
theorem like_referenceTree {note : Note} (hnote : note.Stands L) (index : Nat)
    {data other : Node} (hlike : data.Like L L.text other) :
    (note.referenceTree index data).Like L L.text (note.referenceTree index other) := by
  refine .node (hlike.withElement (by simp) (.same nofun)) (.cons (.leaf (.same L.empty ?_ ?_)) .nil)
  · rintro _ ⟨⟩ _ ⟨⟩
    exact L.append (L.append (L.plain (by simp)) hnote.1) (L.plain (by simp))
  · simp

end Note

namespace Tree

variable {notes : List Note}

mutual

/-- References that are alike are rewritten alike. -/
theorem Like.rewriteNoteRefs (hnotes : ∀ note ∈ notes, note.Stands L) (seen : List String)
    {tree other : Tree} (htree : tree.Obeys PlainName) (hlike : tree.Like L L.text other) :
    (tree.rewriteNoteRefs notes seen).1.Like L L.text (other.rewriteNoteRefs notes seen).1 ∧
      (tree.rewriteNoteRefs notes seen).2 = (other.rewriteNoteRefs notes seen).2 := by
  obtain ⟨data, children⟩ := tree
  obtain ⟨data', children'⟩ := other
  rw [rewriteNoteRefs, rewriteNoteRefs]
  dsimp only
  rw [← hlike.isNoteRef]
  cases href : (Tree.node data children).isNoteRef with
  | true =>
      simp only [if_true, ← hlike.noteName htree href]
      split
      next note hfind =>
        exact ⟨Note.like_referenceTree (hnotes _ (List.mem_of_find?_eq_some hfind)) _ hlike.data,
          rfl⟩
      next => exact ⟨hlike, rfl⟩
  | false =>
      obtain ⟨hinner, hseen⟩ :=
        forestLike_rewriteNoteRefs hnotes seen htree.children hlike.children
      exact ⟨.node hlike.data hinner, hseen⟩

theorem forestLike_rewriteNoteRefs (hnotes : ∀ note ∈ notes, note.Stands L)
    (seen : List String) {forest other : Forest} (hforest : forest.Obeys PlainName) (hlike : Forest.Like L L.text forest other) :
    Forest.Like L L.text (forestRewriteNoteRefs notes seen forest).1
        (forestRewriteNoteRefs notes seen other).1 ∧
      (forestRewriteNoteRefs notes seen forest).2 = (forestRewriteNoteRefs notes seen other).2 := by
  cases forest with
  | nil =>
      cases hlike
      exact ⟨.nil, rfl⟩
  | cons tree rest =>
      obtain ⟨htree, hrest⟩ := Forest.obeys_cons.mp hforest
      cases hlike with
      | cons hfirst hothers =>
          obtain ⟨hfirst, hseen⟩ := Like.rewriteNoteRefs hnotes seen htree hfirst
          rw [forestRewriteNoteRefs, forestRewriteNoteRefs]
          dsimp only
          rw [← hseen]
          obtain ⟨hothers, hseen⟩ := forestLike_rewriteNoteRefs hnotes _ hrest hothers
          exact ⟨.cons hfirst hothers, hseen⟩

end

end Tree

namespace Note

open Forest in
/-- The section of notes that stand for themselves is like itself. -/
theorem like_sectionOf {notes : List Note} (hnotes : ∀ note ∈ notes, note.Stands L) :
    Forest.Like L L.text (sectionOf notes) (sectionOf notes) := by
  have hcontainer : ∀ (tag : String) (attributes : List (String × String)),
      Node.Like L L.text { kind := .container, element := some { tag, attributes } }
        { kind := .container, element := some { tag, attributes } } := by
    intro tag attributes
    refine .same L.empty ?_ (by simp)
    rintro _ ⟨⟩ _ ⟨⟩
  have hleaf : ∀ element : Element, (∀ content ∈ element.content, L.text content content) →
      (Tree.elementLeaf element).Like L L.text (.elementLeaf element) := by
    intro element hcontent
    refine .leaf (.same L.empty ?_ (by simp))
    rintro _ ⟨⟩
    exact hcontent
  have htext : ∀ text : String, L.text text text →
      (Tree.textLeaf text).Like L L.text (.textLeaf text) :=
    fun text htext => .leaf (.same htext nofun (by simp))
  have hbacklinks : ∀ note : Note, Forest.Like L L.text note.backlinks note.backlinks := by
    intro note
    refine List.forall₂_same.mpr fun tree hmem => ?_
    obtain ⟨index, -, hmem⟩ := List.mem_flatMap.mp hmem
    simp only [List.mem_cons, List.not_mem_nil, or_false] at hmem
    rcases hmem with rfl | rfl
    · refine hleaf _ ?_
      rintro _ ⟨⟩
      split
      · exact L.plain (by simp)
      · exact L.plain (plain_backlinkLetters index)
    · exact htext " " (L.plain (by simp))
  have hentry : ∀ note ∈ notes, note.entry.Like L L.text note.entry := by
    intro note hmem
    obtain ⟨hname, hdefinition⟩ := hnotes note hmem
    refine .node (hcontainer _ _) (.cons (hleaf _ ?_) (.cons (.node (hcontainer _ _) ?_) .nil))
    · rintro _ ⟨⟩
      exact L.append hname (L.plain (by simp))
    · exact (hbacklinks note).append (.cons (htext _ hdefinition) .nil)
  have hheading : (Tree.node { kind := .aggregate (.style (.heading .two)) }
      [.leaf { kind := .text, text := "Notes" }]).Like L L.text
        (Tree.node { kind := .aggregate (.style (.heading .two)) }
          [.leaf { kind := .text, text := "Notes" }]) :=
    .node (.same L.empty nofun (by simp))
      (.cons (.leaf (.same (L.plain (by simp)) nofun fun _ => rfl)) .nil)
  refine .cons hheading (.cons (.node (hcontainer _ _) (List.forall₂_same.mpr ?_)) .nil)
  intro tree hmem
  obtain ⟨note, hnote, rfl⟩ := List.mem_map.mp hmem
  exact hentry note hnote

/-- Pages that are alike and directives that say the same resolve to pages that are alike. -/
theorem like_resolve {definitions definitions' : List Directive}
    (hdefinitions : List.Forall₂ (Directive.Like L) definitions definitions')
    {forest other : Forest} (hforest : forest.Obeys PlainName)
    (hlike : Forest.Like L L.text forest other) :
    Forest.Like L L.text (resolve definitions forest).1 (resolve definitions' other).1 ∧
      Notice.Like L (resolve definitions forest).2 (resolve definitions' other).2 := by
  have hreferences := like_referenceNames hforest hlike
  have hnames : names forest = names other := congrArg List.eraseDups hreferences
  have hstands := text_of_mem_referenceNames hforest hlike
  have hnotes : ∀ note ∈ collect (referenceNames forest) definitions (names forest),
      note.Stands L :=
    stands_of_mem_collect hdefinitions fun name hmem => hstands name (List.mem_eraseDups.mp hmem)
  have hundefined : ((names forest).filter fun name =>
        !definitions.any (·.subname == name)) =
      (names forest).filter fun name => !definitions'.any (·.subname == name) := by
    simp only [like_any hdefinitions]
  obtain ⟨hkept, hdropped⟩ := like_dropUndefined
    ((names forest).filter fun name => !definitions.any (·.subname == name)) hforest hlike
  have hwarnings := (like_definitionWarnings hdefinitions (names forest) []).append hdropped
  have hobeys : (withoutUndefined definitions forest).1.Obeys PlainName :=
    obeys_dropUndefined Rule.stable_plainName.wears _ hforest
  rw [resolve_eq, resolve_eq]
  dsimp only
  rw [← like_collect hdefinitions, ← hreferences, ← hnames]
  unfold withoutUndefined at hobeys ⊢
  rw [← hnames, ← hundefined]
  split
  · exact ⟨hkept, hwarnings⟩
  · exact ⟨(Tree.forestLike_rewriteNoteRefs hnotes [] hobeys hkept).1.append
      (like_sectionOf hnotes), hwarnings.append fun _ => rfl⟩

end Note

end PageMarkup
