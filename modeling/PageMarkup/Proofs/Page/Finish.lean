import PageMarkup.Proofs.Note.Pages

/-! # Finished pages

The passes for notes, links and embeds each make one kind of bracket disappear, and what
takes the place of a bracket is a container or a leaf that is ready. Then every heading
gets an element. Lowering finds nothing else and leaves a finished page.
-/

namespace PageMarkup

open Node Forest Html

/-- A node that lowering can finish: besides what makes it sound, a heading has its element. -/
structure Node.Slugged (data : Node) (kinds : List Kind) : Prop where
  childless : data.kind.canHaveChildren = false → kinds = []
  framed : data.kind = .container → data.element.isSome
  headed : data.kind.headingLevel?.isSome → data.element.isSome
  named : ∀ element ∈ data.element, HasPlainNames element
  styled : ∀ aggregate, data.kind = .aggregate aggregate →
    aggregate = .line .blockquote ∨ ∃ style, aggregate = .style style
  lifted : data.kind ≠ .documentRoot

namespace Forest

/-- The kinds that are gone once the notes are resolved. -/
def resolvedKinds : List Kind :=
  [.aggregate (.bracket .noteRef), .documentRoot, .aggregate (.line .directive)]

/-- The kinds that are gone once the links are resolved as well. -/
def linkedKinds : List Kind := .aggregate (.bracket .externalLink) :: resolvedKinds

/-- The kinds that are gone once the embeds are resolved as well. -/
def embeddedKinds : List Kind := .aggregate (.bracket .embeddedFile) :: linkedKinds

end Forest

namespace Node

theorem Sound.of_subset {gone fewer : List Kind} (hsubset : fewer ⊆ gone) {data : Node}
    {kinds : List Kind} (hdata : Sound gone data kinds) : Sound fewer data kinds :=
  { hdata with present := fun hmem => hdata.present (hsubset hmem) }

theorem Sound.cons {gone : List Kind} {kind : Kind} {data : Node} {kinds : List Kind}
    (hdata : Sound gone data kinds) (hkind : data.kind ≠ kind) :
    Sound (kind :: gone) data kinds :=
  { hdata with
    present := fun hmem => by
      rcases List.mem_cons.mp hmem with heq | hmem
      · exact hkind heq
      · exact hdata.present hmem }

/-- A container with plain names is sound while containers are not gone. -/
theorem sound_container {gone : List Kind} (hgone : .container ∉ gone) {data : Node}
    (hkind : data.kind = .container) {element : Element} (helement : data.element = some element)
    (hnames : HasPlainNames element) (kinds : List Kind) : Sound gone data kinds where
  childless hleaf := by rw [hkind] at hleaf; cases hleaf
  flat hflat := by rw [hkind] at hflat; cases hflat
  bare _ := .inl hkind
  framed _ := by rw [helement]; rfl
  named := by rw [helement]; rintro _ ⟨⟩; exact hnames
  present hmem := hgone (hkind ▸ hmem)

/-- A leaf that is ready and has plain names is sound while such leaves are not gone. -/
theorem sound_ready {gone : List Kind} (hgone : .ready ∉ gone) {data : Node}
    (hkind : data.kind = .ready) (hnames : ∀ element ∈ data.element, HasPlainNames element) :
    Sound gone data [] where
  childless _ := rfl
  flat _ := nofun
  bare _ := .inr hkind
  framed hframed := by rw [hkind] at hframed; cases hframed
  named := hnames
  present hmem := hgone (hkind ▸ hmem)

end Node

theorem Html.hasPlainNames_tag {tag : String} (htag : IsName tag) (content : Option String) :
    HasPlainNames { tag, content } := ⟨htag, nofun⟩

namespace Note

variable {gone : List Kind}

theorem sound_referenceTree (hcontainer : .container ∉ gone) (hready : .ready ∉ gone)
    (note : Note) (index : Nat) (data : Node) :
    (note.referenceTree index data).Obeys (Sound gone) := by
  refine Tree.obeys_node.mpr ⟨sound_container hcontainer rfl rfl ?_ _, ?_⟩
  · simp only [HasPlainNames, List.forall_mem_cons]
    exact ⟨by decide, by decide, by decide, nofun⟩
  · refine obeys_cons.mpr ⟨Tree.obeys_node.mpr ⟨sound_ready hready rfl ?_, obeys_nil⟩, obeys_nil⟩
    rintro _ ⟨⟩
    simp only [HasPlainNames, List.forall_mem_cons]
    exact ⟨by decide, by decide, nofun⟩

theorem sound_entryNode (hcontainer : .container ∉ gone) (hready : .ready ∉ gone) {data : Node}
    {kinds : List Kind} (hnode : Note.EntryNode data kinds) : Sound gone data kinds := by
  cases hnode with
  | entry note =>
      refine sound_container hcontainer rfl rfl ?_ _
      simp only [HasPlainNames, List.forall_mem_cons]
      exact ⟨by decide, by decide, by decide, nofun⟩
  | body => exact sound_container hcontainer rfl rfl (hasPlainNames_tag (by decide) _) _
  | name content =>
      refine sound_ready hready rfl ?_
      rintro _ ⟨⟩
      exact hasPlainNames_tag (by decide) _
  | backlink href label =>
      refine sound_ready hready rfl ?_
      rintro _ ⟨⟩
      simp only [HasPlainNames, List.forall_mem_cons]
      exact ⟨by decide, by decide, nofun⟩
  | text => exact sound_ready hready rfl nofun

/-- There is no bracket in the notes section. -/
theorem sound_sectionOf (notes : List Note) : (sectionOf notes).Obeys (Sound embeddedKinds) := by
  refine obeys_sectionOf notes ⟨nofun, nofun, nofun, nofun, nofun, by decide⟩
    ⟨fun _ => rfl, nofun, nofun, nofun, nofun, by decide⟩
    (sound_container (by decide) rfl rfl ?_ _) fun _ _ => sound_entryNode (by decide) (by decide)
  simp only [HasPlainNames, List.forall_mem_cons]
  exact ⟨by decide, by decide, nofun⟩

end Note

/-- Without references their kind is gone. -/
theorem Forest.Obeys.without_references {gone : List Kind} {forest : Forest}
    (hforest : forest.Obeys (Sound gone)) (hreferences : forest.references = []) :
    forest.Obeys (Sound (.aggregate (.bracket .noteRef) :: gone)) := by
  refine Tree.forestObeys_of_subtrees fun tree hmem => ?_
  refine (Tree.forestObeys_of_mem_subtrees hforest hmem).data.cons fun hkind => ?_
  have hmatching : tree ∈ forest.references :=
    mem_matching.mpr ⟨hmem, beq_iff_eq.mpr hkind⟩
  rw [hreferences] at hmatching
  cases hmatching

/-- Resolving the notes leaves a sound page without references. -/
theorem Note.sound_resolve (definitions : List Directive) {body : Forest}
    (hbody : body.Obeys (Sound liftedKinds)) :
    (Note.resolve definitions body).1.Obeys (Sound resolvedKinds) := by
  have hcleared := (Note.resolution_resolve definitions hbody).cleared
  have hkept : (Note.withoutUndefined definitions body).1.Obeys
      (Sound [.documentRoot, .aggregate (.line .directive)]) :=
    Tree.forestObeys_mono (fun _ _ hdata => hdata.of_subset (by decide))
      (Note.obeys_dropUndefined (Rule.Stable.sound (by decide)).wears _ hbody)
  rw [Note.resolve_eq] at hcleared ⊢
  dsimp only at hcleared ⊢
  split
  next hnone =>
    rw [if_pos hnone] at hcleared
    exact hkept.without_references hcleared
  next hsome =>
    rw [if_neg hsome] at hcleared
    have hrewritten : ∀ notes : List Note,
        Obeys (Sound [.documentRoot, .aggregate (.line .directive)])
          (Tree.forestRewriteNoteRefs notes [] (Note.withoutUndefined definitions body).1).1 := by
      intro notes
      have htame : Rule.Tame (Sound [.documentRoot, .aggregate (.line .directive)]) :=
        Rule.tame_sound _
      refine htame.forestObeys_rewriteNoteRefs (fun note index data _ _ _ => ?_) hkept
      exact Note.sound_referenceTree (by decide) (by decide) note index data
    have hreferences := List.append_eq_nil_iff.mp ((matching_append _ _).symm.trans hcleared)
    exact obeys_append.mpr
      ⟨(hrewritten _).without_references hreferences.1,
        Tree.forestObeys_mono (fun _ _ hdata => hdata.of_subset (by decide))
          (Note.sound_sectionOf _)⟩

/-! ## Links and embeds -/

/-- Replacing all nodes of a kind by sound ones that can hold no more makes it disappear. -/
theorem Tree.sound_forestExpand {gone : List Kind} {kind : Kind}
    {f : Tree → Option (Forest × List Notice)}
    (hnone : ∀ tree, f tree = none → tree.kind ≠ kind)
    (hanswer : ∀ tree answer, tree.Obeys (Sound gone) → f tree = some answer →
      answer.1.Obeys (Sound (kind :: gone)))
    (hf : ∀ tree answer, f tree = some answer → Kind.Tamer answer.1.kinds [tree.kind])
    {forest : Forest} (hforest : forest.Obeys (Sound gone)) :
    Forest.Obeys (Sound (kind :: gone)) (Tree.forestExpand f forest).1 := by
  refine Tree.forestObeys_expand (fun data children hdata hsound => ?_) hanswer hforest
  exact (Rule.tame_sound gone hsound (Tree.kinds_forestExpand hf children)).cons (hnone _ hdata)

theorem Link.hasPlainNames (href label : String) :
    HasPlainNames
      { tag := "a", attributes := newContextAttributes href, content := some label } := by
  simp only [HasPlainNames, newContextAttributes, List.forall_mem_cons]
  exact ⟨by decide, by decide, by decide, by decide, nofun⟩

/-- Resolving the links leaves a sound page without links. -/
theorem Link.sound_resolveExternals {body : Forest} (hbody : body.Obeys (Sound resolvedKinds)) :
    (Link.resolveExternals body).1.Obeys (Sound linkedKinds) := by
  refine Tree.sound_forestExpand (fun tree => resolveExternal?_eq_none_iff.mp)
    (fun tree answer _ hsome => ?_) (fun tree answer hsome => ?_) hbody
  · cases (answers_of_resolveExternal? hsome).2 with
    | removed => exact obeys_nil
    | leaf =>
        refine obeys_cons.mpr ⟨Tree.obeys_node.mpr ⟨sound_ready (by decide) rfl ?_, obeys_nil⟩,
          obeys_nil⟩
        rintro _ ⟨⟩
        exact Link.hasPlainNames _ _
  · cases (answers_of_resolveExternal? hsome).2 with
    | removed => exact .nil _
    | leaf => exact (Kind.Tamer.refl []).cons nofun

theorem Embed.sound_figure (embed : Embed) (media : Media) (width : Nat) (data : Node) :
    (embed.figure media width data).Obeys (Sound embeddedKinds) := by
  have hlink : HasPlainNames { tag := "a", attributes := Link.newContextAttributes media.link } :=
    Link.hasPlainNames media.link ""
  have himage : HasPlainNames
      { tag := "img"
        attributes :=
          [("src", media.link), ("alt", embed.caption.getD media.description)] } := by
    simp only [HasPlainNames, List.forall_mem_cons]
    exact ⟨by decide, by decide, by decide, nofun⟩
  have hcaption : HasPlainNames
      { tag := "figcaption", content := some (embed.caption.getD media.description) } :=
    hasPlainNames_tag (by decide) _
  have hleaf : ∀ element, HasPlainNames element →
      (Tree.elementLeaf element).Obeys (Sound embeddedKinds) := by
    intro element hnames
    refine Tree.obeys_node.mpr ⟨sound_ready (by decide) rfl ?_, obeys_nil⟩
    rintro _ ⟨⟩
    exact hnames
  refine Tree.obeys_node.mpr ⟨sound_container (by decide) rfl rfl ?_ _, ?_⟩
  · simp only [HasPlainNames, List.forall_mem_cons]
    exact ⟨by decide, by decide, by decide, nofun⟩
  · refine obeys_cons.mpr ⟨Tree.obeys_node.mpr ⟨sound_container (by decide) rfl rfl hlink _, ?_⟩,
      obeys_cons.mpr ⟨hleaf _ hcaption, obeys_nil⟩⟩
    exact obeys_cons.mpr ⟨hleaf _ himage, obeys_nil⟩

/-- Resolving the embeds leaves a sound page without brackets. -/
theorem Embed.sound_resolveAll (registries : Registries) {body : Forest}
    (hbody : body.Obeys (Sound linkedKinds)) :
    (Embed.resolveAll registries body).1.Obeys (Sound embeddedKinds) := by
  refine Tree.sound_forestExpand (fun tree => resolve?_eq_none_iff.mp)
    (fun tree answer _ hsome => ?_) (fun tree answer hsome => ?_) hbody
  · cases (answers_of_resolve? hsome).2 with
    | removed => exact obeys_nil
    | figure => exact obeys_cons.mpr ⟨Embed.sound_figure _ _ _ _, obeys_nil⟩
  · obtain ⟨hkind, hanswers⟩ := answers_of_resolve? hsome
    cases hanswers with
    | removed => exact .nil _
    | figure => exact (Kind.Tamer.refl []).cons fun _ => by rw [hkind]; rfl

/-! ## Headings and lowering -/

theorem Node.Sound.slugged {data : Node} {kinds : List Kind}
    (hdata : Sound embeddedKinds data kinds) (hheading : data.kind.headingLevel? = none) :
    Slugged data kinds where
  childless := hdata.childless
  framed := hdata.framed
  headed hsome := by rw [hheading] at hsome; cases hsome
  named := hdata.named
  styled aggregate hkind := by
    have hpresent := hdata.present
    rw [hkind] at hpresent
    cases aggregate with
    | style style => exact .inr ⟨style, rfl⟩
    | bracket bracket => cases bracket <;> exact absurd (by decide) hpresent
    | line line =>
        cases line with
        | blockquote => exact .inl rfl
        | directive => exact absurd (by decide) hpresent
  lifted hkind := hdata.present (by rw [hkind]; decide)

/-- A heading with its element can be finished. -/
theorem Node.Sound.slugged_heading {data : Node} {kinds : List Kind} {level : HeadingLevel}
    (hdata : Sound embeddedKinds data kinds) (hheading : data.kind.headingLevel? = some level)
    (slug : String) :
    Slugged
      { data with
        element := some
          { tag := "h" ++ toString level.number, attributes := [("id", slug)] } } kinds where
  childless := hdata.childless
  framed _ := rfl
  headed _ := rfl
  named := by
    rintro _ ⟨⟩
    simp only [HasPlainNames, List.forall_mem_cons]
    refine ⟨?_, by decide, nofun⟩
    cases level <;> decide
  styled aggregate hkind := by
    cases aggregate with
    | style style => exact .inr ⟨style, rfl⟩
    | bracket bracket => rw [show data.kind = _ from hkind] at hheading; cases hheading
    | line line => rw [show data.kind = _ from hkind] at hheading; cases hheading
  lifted hkind := by rw [show data.kind = _ from hkind] at hheading; cases hheading

theorem Forest.Obeys.slugHeadings {body : Forest} (hbody : body.Obeys (Sound embeddedKinds)) :
    body.slugHeadings.1.Obeys Slugged :=
  Tree.forestObeys_slugHeadings (fun _ _ _ slug hdata hlevel => hdata.slugged_heading hlevel slug)
    (fun _ _ hdata hlevel => hdata.slugged hlevel) _ hbody

/-- What becomes text has no children. -/
theorem Node.Slugged.canHaveChildren_eq_false {data : Node} {kinds : List Kind}
    (hdata : Slugged data kinds) (htext : data.kind.BecomesText) :
    data.kind.canHaveChildren = false := by
  have hlifted := hdata.lifted
  have hstyled := hdata.styled
  generalize data.kind = kind at htext hlifted hstyled ⊢
  cases kind with
  | aggregate aggregate => exact absurd rfl (htext.not_styled (hstyled aggregate rfl))
  | documentRoot => exact absurd rfl hlifted
  | paragraph => exact absurd .paragraph (htext.untagged "p")
  | container => exact absurd rfl htext.container
  | _ => rfl

/-- A lowered node is finished if its lowered children are. -/
theorem Node.Slugged.lowerNode {data : Node} {kinds : List Kind} (hdata : Slugged data kinds)
    {lowered : Forest} (hempty : kinds = [] → lowered = []) (hlowered : lowered.Obeys Finished) :
    (Tree.lowerNode data lowered).Obeys Finished := by
  have htagged : ∀ tag ∈ loweredTags, ∀ data : Node, data.kind = .container →
      data.element = some { tag } → ∀ children : Forest, children.Obeys Finished →
      (Tree.node data children).Obeys Finished := by
    intro tag htag data hkind helement children hchildren
    have hnames : ∀ tag ∈ loweredTags, IsName tag := by decide
    refine Tree.obeys_node.mpr ⟨⟨?_, .inl ⟨hkind, by rw [helement]; rfl⟩⟩, hchildren⟩
    rw [helement]
    rintro _ ⟨⟩
    exact hasPlainNames_tag (hnames tag htag) _
  have hleaf : data.kind.canHaveChildren = false → lowered = [] :=
    fun hkind => hempty (hdata.childless hkind)
  have hready : ∀ other : Node, other.kind = .ready →
      (∀ element ∈ other.element, HasPlainNames element) → lowered = [] →
      (Tree.node other lowered).Obeys Finished := by
    rintro other hkind hnames rfl
    exact Tree.obeys_node.mpr ⟨⟨hnames, .inr ⟨hkind, rfl⟩⟩, hlowered⟩
  have hlowers := Tree.lowers_lowerNode data lowered
  generalize Tree.lowerNode data lowered = tree at hlowers ⊢
  cases hlowers with
  | done hkind =>
      rcases hkind with hkind | hkind
      · exact hready data hkind hdata.named (hleaf (by rw [hkind]; rfl))
      · exact Tree.obeys_node.mpr ⟨⟨hdata.named, .inl ⟨hkind, hdata.framed hkind⟩⟩, hlowered⟩
  | heading level hkind =>
      have hsome := hdata.headed (by rw [hkind]; rfl)
      exact Tree.obeys_node.mpr ⟨⟨hdata.named, .inl ⟨rfl, hsome⟩⟩, hlowered⟩
  | tagged htag => exact htagged _ htag.mem_loweredTags _ rfl rfl _ hlowered
  | emBold =>
      have hbold := htagged "b" (by decide) { kind := .container, element := some { tag := "b" } }
        rfl rfl _ hlowered
      exact htagged "i" (by decide) _ rfl rfl _ (obeys_cons.mpr ⟨hbold, obeys_nil⟩)
  | text htext => exact hready _ rfl nofun (hleaf (hdata.canHaveChildren_eq_false htext))

theorem Forest.Obeys.dropBlankHeadings {rule : Rule} (hrule : rule.Wears)
    (hheading : ∀ {data kinds others}, rule data others →
      data.kind.headingLevel?.isSome = true → kinds ⊆ others → rule data kinds)
    {body : Forest} (hbody : body.Obeys rule) : body.dropBlankHeadings.1.Obeys rule :=
  (Tree.forestObeys_trimHeadings hrule hheading hbody).removeWhere hrule
    fun _ => Tree.goesWhenEmpty_of_blank

/-- Lowering finishes a page whose headings have their elements. -/
theorem Forest.Obeys.lower {body : Forest} (hbody : body.Obeys Slugged) :
    body.lower.Obeys Finished :=
  Tree.forestObeys_lower (fun _ _ _ hdata hempty hlowered => hdata.lowerNode hempty hlowered) hbody

namespace Draft

variable {source : Source} {registries : Registries}

/-- The page that is slugged and lowered: links and embeds are resolved and the headings
without content are gone. -/
def unlowered (registries : Registries) (draft : Draft) : Forest :=
  (Embed.resolveAll registries (Link.resolveExternals draft.body).1).1.dropBlankHeadings.1

/-- What the passes after that for notes leave. -/
theorem body_after_notes {draft final : Draft}
    (hrun : (runPasses source registries afterNotes draft).2 = .ok final) :
    final.body = (draft.unlowered registries).slugHeadings.1.lower ∧
      final.headings = (draft.unlowered registries).slugHeadings.2 := by
  obtain ⟨linked, _, hlink, hrun⟩ := runPasses_cons_eq_ok hrun
  obtain ⟨embedded, _, hembed, hrun⟩ := runPasses_cons_eq_ok hrun
  obtain ⟨lowered, _, hlower, hrun⟩ := runPasses_cons_eq_ok hrun
  obtain ⟨last, _, hlast, hrun⟩ := runPasses_cons_eq_ok hrun
  cases hlink
  cases hembed
  cases hlower
  cases hlast
  cases hrun
  exact ⟨rfl, rfl⟩

/-- The passes after that for notes finish the page. -/
theorem finished_after_notes {draft final : Draft} (hdraft : draft.body.Obeys (Sound resolvedKinds))
    (hrun : (runPasses source registries afterNotes draft).2 = .ok final) :
    final.body.Obeys Finished := by
  have hembedded := Embed.sound_resolveAll registries (Link.sound_resolveExternals hdraft)
  have hstable : Rule.Stable (Sound embeddedKinds) := .sound (by decide)
  have hkept : (draft.unlowered registries).Obeys (Sound embeddedKinds) :=
    Forest.Obeys.dropBlankHeadings hstable.wears (fun hdata _ => hstable.fewer hdata) hembedded
  rw [(body_after_notes hrun).1]
  exact hkept.slugHeadings.lower

/-- What the pass for links finds. -/
theorem sound_before_links {body : Forest} {draft : Draft}
    (hbody : Forest.ofLexemes source.lexemes = .ok body)
    (hrun : (runPasses source registries (beforeNotes ++ [Pass.notes]) { body }).2 = .ok draft) :
    draft.body.Obeys (Sound resolvedKinds) := by
  obtain ⟨middle, hbefore, hrun⟩ := runPasses_append_eq_ok hrun
  obtain ⟨noted, _, hnotes, hrun⟩ := runPasses_cons_eq_ok hrun
  cases hnotes
  cases hrun
  exact Note.sound_resolve middle.definitions (sound_before_notes hbody hbefore).1

/-- What the pass for embeds finds. -/
theorem sound_before_embeds {body : Forest} {draft : Draft}
    (hbody : Forest.ofLexemes source.lexemes = .ok body)
    (hrun : (runPasses source registries (beforeNotes ++ [Pass.notes, .externalLinks])
      { body }).2 = .ok draft) :
    draft.body.Obeys (Sound linkedKinds) := by
  rw [show beforeNotes ++ [Pass.notes, .externalLinks] =
    beforeNotes ++ [Pass.notes] ++ [Pass.externalLinks] from rfl] at hrun
  obtain ⟨middle, hbefore, hrun⟩ := runPasses_append_eq_ok hrun
  obtain ⟨linked, _, hlinks, hrun⟩ := runPasses_cons_eq_ok hrun
  cases hlinks
  cases hrun
  exact Link.sound_resolveExternals (sound_before_links hbody hbefore)

end Draft

end PageMarkup
