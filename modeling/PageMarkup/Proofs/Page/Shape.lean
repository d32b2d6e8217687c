import PageMarkup.Proofs.Html.RoundTrip
import PageMarkup.Proofs.Nesting.Acceptance
import PageMarkup.Proofs.Nesting.Markers
import PageMarkup.Proofs.Page.Runs
import PageMarkup.Proofs.Tree.Replacing

/-! # The shape of a page on its way to a document

Nesting leaves trees of lexemes and aggregates without elements. The check of the
structure adds that brackets hold no aggregates and line constructs stand at the root.
From then on the passes only make kinds of nodes disappear: directives first, then
note references, links and embeds, and lowering leaves nothing but containers with an
element around their children and leaves that are ready for output.
-/

namespace PageMarkup

open Html

namespace Node

/-- A node as nesting leaves it: a lexeme without children or an aggregate, without an
element. The mark of a directive can be read. -/
structure Built (source : Source) (data : Node) (kinds : List Kind) : Prop where
  childless : data.kind.canHaveChildren = false → kinds = []
  bare : data.element = none
  raw : data.kind.aggregate? = none → data.kind.isProcessed = false
  marked : data.kind = .aggregate (.line .directive) →
    ∃ opener ∈ data.opener, (Directive.parseOpening? (source.slice opener)).isSome

/-- A node that passed the check of the structure, wherever it stands. -/
structure Checked (data : Node) (kinds : List Kind) : Prop where
  flat : data.kind.flat → ∀ kind ∈ kinds, kind.canHaveChildren = false
  placed : ∀ kind ∈ kinds, kind.rootOnly = false

/-- A node of a page on its way to a document, when the kinds `gone` are gone. -/
structure Sound (gone : List Kind) (data : Node) (kinds : List Kind) : Prop where
  childless : data.kind.canHaveChildren = false → kinds = []
  flat : data.kind.flat → ∀ kind ∈ kinds, kind.canHaveChildren = false
  /-- Only what is ready or a container has an element, and a container always has one. -/
  bare : data.element.isSome → data.kind = .container ∨ data.kind = .ready
  framed : data.kind = .container → data.element.isSome
  named : ∀ element ∈ data.element, HasPlainNames element
  present : data.kind ∉ gone

/-- A node of a document: a container with its element, or a leaf that is ready. -/
structure Finished (data : Node) (kinds : List Kind) : Prop where
  named : ∀ element ∈ data.element, HasPlainNames element
  shape : data.kind = .container ∧ data.element.isSome ∨ data.kind = .ready ∧ kinds = []

end Node

open Node

theorem Rule.Stable.sound {gone : List Kind} (hparagraph : .paragraph ∉ gone) :
    Rule.Stable (Sound gone) where
  fewer hdata hsubset :=
    { hdata with
      childless := fun hkind => by
        rw [hdata.childless hkind] at hsubset
        exact List.subset_nil.mp hsubset
      flat := fun hflat kind hmem => hdata.flat hflat kind (hsubset hmem) }
  text _ _ hdata := ⟨hdata.childless, hdata.flat, hdata.bare, hdata.framed, hdata.named, hdata.present⟩
  span _ hdata := ⟨hdata.childless, hdata.flat, hdata.bare, hdata.framed, hdata.named, hdata.present⟩
  paragraph _ _ := ⟨nofun, nofun, nofun, nofun, nofun, hparagraph⟩
  quote _ hkind hdata :=
    { hdata with
      childless := fun hleaf => by rw [hkind] at hleaf; cases hleaf
      flat := fun hflat => by rw [hkind] at hflat; cases hflat }

theorem Rule.tame_sound (gone : List Kind) : Rule.Tame (Sound gone) := by
  intro data kinds others hdata htame
  refine { hdata with childless := fun hkind => ?_, flat := fun hflat kind hmem => ?_ }
  · rw [hdata.childless hkind] at htame
    exact Kind.Tamer.nil_iff.mp htame
  · obtain ⟨other, hother, hle⟩ := htame kind hmem
    have hnot := hdata.flat hflat other hother
    by_contra hcan
    rw [hle (by simpa using hcan)] at hnot
    cases hnot

/-! ## Nesting and checking -/

namespace Tree

theorem obeys_leafOf {rule : Rule} {lexeme : Lexeme}
    (hrule : rule (Nesting.leafOf lexeme).data []) : (Nesting.leafOf lexeme).Obeys rule :=
  obeys_node.mpr ⟨hrule, Forest.obeys_nil⟩

theorem forestReading_eq_flatMap (forest : Forest) :
    forestReading forest = forest.flatMap reading := by
  induction forest with
  | nil => rw [forestReading, List.flatMap_nil]
  | cons tree rest ih => rw [forestReading, List.flatMap_cons, ih]

/-- Grammatical trees are built of lexemes and aggregates. -/
theorem Grammatical.built {source : Source} {tree : Tree} (htree : tree.Grammatical)
    (hraw : ∀ mark ∈ tree.reading, mark.kind.isProcessed = false)
    (hmarks : ∀ mark ∈ tree.reading, mark.kind = .lineMark .directive →
      (Directive.parseOpening? (source.slice mark.span)).isSome) :
    tree.Obeys (Built source) := by
  induction htree with
  | leaf lexeme haggregate _ =>
      refine obeys_leafOf ⟨fun _ => rfl, rfl, fun _ => ?_, fun hkind => ?_⟩
      · refine hraw { kind := lexeme.kind, span := lexeme.span, text := some lexeme.text } ?_
        rw [reading_leafOf haggregate]
        exact List.mem_cons_self
      · rw [show lexeme.kind = .aggregate (.line .directive) from hkind] at haggregate
        cases haggregate
  | aggregate aggregate opener closer children _ _ ih =>
      have hchildren : ∀ child ∈ children, ∀ mark ∈ child.reading,
          mark ∈ (Tree.node
            { kind := .aggregate aggregate
              span := opener.cover closer
              opener := some opener
              closer := some closer } children).reading := by
        intro child hchild mark hmark
        rw [reading]
        simp only [forestReading_eq_flatMap, List.mem_append, List.mem_flatMap]
        exact .inl (.inr ⟨child, hchild, hmark⟩)
      refine obeys_node.mpr ⟨⟨(by rintro ⟨⟩), rfl, (by rintro ⟨⟩), fun hkind => ?_⟩, ?_⟩
      · refine ⟨opener, rfl, ?_⟩
        refine hmarks { kind := aggregate.startedBy, span := opener } ?_ ?_
        · rw [reading]
          simp
        · injection hkind with hkind
          rw [hkind]
          rfl
      · exact Forest.obeys_iff.mpr fun child hchild =>
          ih child hchild (fun mark hmark => hraw mark (hchildren child hchild mark hmark))
            fun mark hmark => hmarks mark (hchildren child hchild mark hmark)

mutual

theorem checked_of_faults {atRoot : Bool} {tree : Tree} (hfaults : tree.faults atRoot = []) :
    tree.Obeys Checked ∧ (atRoot = false → tree.kind.rootOnly = false) := by
  obtain ⟨data, children⟩ := tree
  rw [faults, List.append_eq_nil_iff] at hfaults
  obtain ⟨hown, hchildren⟩ := hfaults
  obtain ⟨hobeys, hplaced⟩ := checked_of_forestFaults hchildren
  simp only [ownFaults, List.append_eq_nil_iff, Option.toList_eq_nil_iff] at hown
  obtain ⟨⟨-, hplace⟩, hnesting⟩ := hown
  refine ⟨obeys_node.mpr ⟨⟨fun hflat kind hmem => ?_, hplaced rfl⟩, hobeys⟩, fun hroot => ?_⟩
  · obtain ⟨child, hchild, rfl⟩ := List.mem_map.mp hmem
    rw [nestingFault?, if_pos (show (Tree.node data children).kind.flat from hflat), Option.map_eq_none_iff, List.find?_eq_none] at hnesting
    simpa using hnesting child hchild
  · simpa [placeFault?, hroot] using hplace

theorem checked_of_forestFaults {atRoot : Bool} {forest : Forest}
    (hfaults : forestFaults atRoot forest = []) :
    forest.Obeys Checked ∧ (atRoot = false → ∀ kind ∈ forest.kinds, kind.rootOnly = false) := by
  cases forest with
  | nil => exact ⟨Forest.obeys_nil, by simp [Forest.kinds]⟩
  | cons tree rest =>
      rw [forestFaults, List.append_eq_nil_iff] at hfaults
      obtain ⟨htree, hplaced⟩ := checked_of_faults hfaults.1
      obtain ⟨hrest, hothers⟩ := checked_of_forestFaults hfaults.2
      refine ⟨Forest.obeys_cons.mpr ⟨htree, hrest⟩, fun hroot => ?_⟩
      exact List.forall_mem_cons.mpr ⟨hplaced hroot, hothers hroot⟩

end

end Tree

/-- Nesting makes no paragraphs. -/
theorem Node.Built.ne_paragraph {source : Source} {data : Node} {kinds : List Kind}
    (hbuilt : Built source data kinds) : data.kind ≠ .paragraph := by
  intro hkind
  have hraw := hbuilt.raw (by rw [hkind]; rfl)
  rw [hkind] at hraw
  cases hraw

namespace Forest

/-- What passed the check obeys its rules. -/
theorem checked_of_check {forest : Forest} (hcheck : forest.check = .ok ()) :
    forest.Obeys Checked := by
  unfold check at hcheck
  split at hcheck
  next hfaults => exact (Tree.checked_of_forestFaults hfaults).1
  next => cases hcheck

/-- What the lexemes of a source nest into is built of lexemes and aggregates. -/
theorem built_ofLexemes {source : Source} {body : Forest}
    (hbody : ofLexemes source.lexemes = .ok body) : body.Obeys (Built source) := by
  have hgrammatical := ((ofLexemes_eq_ok_iff source.isRaw_lexemes body).mp hbody).1
  have hmark : ∀ tree ∈ body, ∀ mark ∈ tree.reading,
      ∃ lexeme ∈ source.lexemes, lexeme.kind = mark.kind ∧ lexeme.span = mark.span := by
    intro tree htree mark hmem
    refine exists_lexeme_of_mem_reading hbody ?_
    rw [reading, Tree.forestReading_eq_flatMap]
    exact List.mem_flatMap.mpr ⟨tree, htree, hmem⟩
  refine obeys_iff.mpr fun tree htree => (hgrammatical tree htree).built ?_ ?_
  · intro mark hmem
    obtain ⟨lexeme, hlexeme, hkind, -⟩ := hmark tree htree mark hmem
    exact hkind ▸ source.isRaw_lexemes lexeme hlexeme
  · intro mark hmem hdirective
    obtain ⟨lexeme, hlexeme, hkind, hspan⟩ := hmark tree htree mark hmem
    exact hspan ▸ Directive.parseOpening?_isSome hlexeme (hkind.trans hdirective)

/-- Pruning leaves a forest that is built of lexemes and aggregates. -/
theorem Obeys.built_pruneEmpty {source : Source} {forest : Forest}
    (hbuilt : forest.Obeys (Built source)) : forest.pruneEmpty.1.Obeys (Built source) := by
  refine Tree.forestObeys_pruneEmpty (fun hdata hsubset => ?_) hbuilt
  refine { hdata with childless := fun hkind => ?_ }
  rw [hdata.childless hkind] at hsubset
  exact List.subset_nil.mp hsubset

/-- Pruning leaves a forest that passes the check. -/
theorem Obeys.checked_pruneEmpty {forest : Forest} (hchecked : forest.Obeys Checked) :
    forest.pruneEmpty.1.Obeys Checked :=
  Tree.forestObeys_pruneEmpty (fun hdata hsubset =>
    ⟨fun hflat kind hmem => hdata.flat hflat kind (hsubset hmem),
      fun kind hmem => hdata.placed kind (hsubset hmem)⟩) hchecked

/-- The kinds that are gone once directives have been lifted: those of directives and
those that no pass has made yet. -/
def liftedKinds : List Kind := [.documentRoot, .aggregate (.line .directive), .container, .ready]

end Forest

open Forest

/-- No node has an element as long as nothing is a container or ready. -/
theorem Node.Sound.element_eq_none {data : Node} {kinds : List Kind}
    (hdata : Sound liftedKinds data kinds) : data.element = none := by
  by_contra hsome
  have hpresent := hdata.present
  rcases hdata.bare (Option.isSome_iff_ne_none.mpr hsome) with hkind | hkind <;>
    simp [hkind, liftedKinds] at hpresent

/-- What passed nesting and the check of the structure and is no directive is sound. -/
theorem Node.Built.sound {source : Source} {data : Node} {kinds : List Kind}
    (hbuilt : Built source data kinds) (hchecked : Checked data kinds)
    (hkind : data.kind ≠ .aggregate (.line .directive)) : Sound liftedKinds data kinds where
  childless := hbuilt.childless
  flat := hchecked.flat
  bare hsome := by rw [hbuilt.bare] at hsome; cases hsome
  framed hcontainer := by
    have hraw := hbuilt.raw (by rw [hcontainer]; rfl)
    rw [hcontainer] at hraw
    cases hraw
  named := by rw [hbuilt.bare]; nofun
  present hmem := by
    simp only [liftedKinds, List.mem_cons, List.not_mem_nil, or_false] at hmem
    rcases hmem with hmem | hmem | hmem | hmem
    · have hraw := hbuilt.raw (by rw [hmem]; rfl)
      rw [hmem] at hraw
      cases hraw
    · exact hkind hmem
    · have hraw := hbuilt.raw (by rw [hmem]; rfl)
      rw [hmem] at hraw
      cases hraw
    · have hraw := hbuilt.raw (by rw [hmem]; rfl)
      rw [hmem] at hraw
      cases hraw

namespace Tree

mutual

theorem Obeys.sound {source : Source} {tree : Tree} (hbuilt : tree.Obeys (Built source))
    (hchecked : tree.Obeys Checked) (hkind : tree.kind ≠ .aggregate (.line .directive)) :
    tree.Obeys (Sound liftedKinds) := by
  obtain ⟨data, children⟩ := tree
  refine obeys_node.mpr ⟨hbuilt.data.sound hchecked.data hkind,
    forestObeys_sound hbuilt.children hchecked.children fun kind hmem hdirective => ?_⟩
  have hplaced := hchecked.data.placed kind hmem
  rw [hdirective] at hplaced
  cases hplaced

theorem forestObeys_sound {source : Source} {forest : Forest}
    (hbuilt : forest.Obeys (Built source)) (hchecked : forest.Obeys Checked)
    (hkinds : ∀ kind ∈ forest.kinds, kind ≠ .aggregate (.line .directive)) :
    forest.Obeys (Sound liftedKinds) := by
  cases forest with
  | nil => exact Forest.obeys_nil
  | cons tree rest =>
      obtain ⟨htree, hrest⟩ := Forest.obeys_cons.mp hbuilt
      obtain ⟨htree', hrest'⟩ := Forest.obeys_cons.mp hchecked
      obtain ⟨hkind, hkinds⟩ := List.forall_mem_cons.mp hkinds
      exact Forest.obeys_cons.mpr
        ⟨htree.sound htree' hkind, forestObeys_sound hrest hrest' hkinds⟩

end

end Tree

namespace Draft

variable {source : Source} {registries : Registries}

/-- Checking, pruning and lifting the directives make what was built sound. -/
theorem sound_of_lifted {draft final : Draft} (hbuilt : draft.body.Obeys (Built source))
    (hrun : (runPasses source registries [.validate, .prune, .directives] draft).2 = .ok final) :
    final.body.Obeys (Sound liftedKinds) ∧ final.title = draft.title := by
  obtain ⟨hcheck, rfl⟩ := eq_of_lifted hrun
  have hchecked : draft.body.Obeys Checked := by
    unfold Forest.check at hcheck
    split at hcheck
    next hfaults => exact (Tree.checked_of_forestFaults hfaults).1
    next => cases hcheck
  refine ⟨?_, rfl⟩
  have hbuilt := hbuilt.built_pruneEmpty
  have hchecked := hchecked.checked_pruneEmpty
  have hkept : Directive.body source draft.body.pruneEmpty.1 ⊆ draft.body.pruneEmpty.1 :=
    List.filter_sublist.subset
  refine Tree.forestObeys_sound (hbuilt.subset hkept) (hchecked.subset hkept) ?_
  intro kind hmem hdirective
  obtain ⟨tree, htree, rfl⟩ := List.mem_map.mp hmem
  obtain ⟨hmem, hnone⟩ := List.mem_filter.mp htree
  obtain ⟨opener, hopener, hparses⟩ :=
    (obeys_iff.mp hbuilt tree hmem).data.marked hdirective
  rw [Directive.ofTree?, if_pos hdirective, hopener] at hnone
  simp at hnone
  rw [hnone] at hparses
  cases hparses

/-- The passes that rearrange the body and read the directives. -/
def rearranging : List Pass :=
  [.blockquotes, .trim, .paragraphs, .flags, .commands, .title, .contributors]

theorem run_rearranging {rule : Rule} (hrule : rule.Stable) {pass : Pass}
    (hpass : pass ∈ rearranging) {draft next : Draft} {notices : List Notice}
    (hdraft : draft.body.Obeys rule) (hrun : pass.run source registries draft = .ok (next, notices)) :
    next.body.Obeys rule := by
  cases pass with
  | blockquotes =>
      cases hrun
      exact hdraft.mergeQuotes hrule
  | trim =>
      cases hrun
      exact hdraft.trimNewlines
  | paragraphs =>
      cases hrun
      exact hdraft.paragraphs hrule
  | flags | commands | contributors =>
      cases hrun
      exact hdraft
  | title =>
      obtain ⟨first, others, -, rfl, -⟩ := title_eq_ok hrun
      exact hdraft
  | _ => simp [rearranging] at hpass

end Draft

end PageMarkup
