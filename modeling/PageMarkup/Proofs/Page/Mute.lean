import PageMarkup.Proofs.Page.Unlisted

/-! # Text is held by leaves

All text of a page stands in nodes that cannot have children. A node that can has no text
of its own, and its element, once it gets one, has no content. Only headings are written as
headings, and they get their elements last; the title, which is beside the body, is the only
heading of the first level.
-/

namespace PageMarkup

open Node Forest Html

/-- What a node holds beside its children, if all text is held by leaves. Some tags are out
of bounds for its element. -/
structure Node.HoldsNoText (tags : List String) (data : Node) : Prop where
  text : data.kind.canHaveChildren = true → data.text = ""
  content : data.kind.canHaveChildren = true → ∀ element ∈ data.element, element.content = none
  untagged : ∀ element ∈ data.element, element.tag ∉ tags

/-- A node that can have children holds no text itself, and no node has one of the tags. -/
def Node.Mute (tags : List String) : Rule := fun data _ => data.HoldsNoText tags

/-- The tags of headings. -/
def Html.headingTags : List String := ["h1", "h2", "h3", "h4", "h5", "h6"]

/-- The tags of links and of what notes consist of. -/
def Html.noteTags : List String := ["sup", "div", "a"]

namespace Node

variable {tags : List String}

theorem HoldsNoText.of_bare {data : Node} (hbare : data.element = none)
    (htext : data.kind.canHaveChildren = true → data.text = "") : data.HoldsNoText tags where
  text := htext
  content _ := by rw [hbare]; nofun
  untagged := by rw [hbare]; nofun

theorem HoldsNoText.of_leaf {data : Node} (hleaf : data.kind.canHaveChildren = false)
    (htag : ∀ element ∈ data.element, element.tag ∉ tags) : data.HoldsNoText tags where
  text hkind := by rw [hleaf] at hkind; cases hkind
  content hkind := by rw [hleaf] at hkind; cases hkind
  untagged := htag

/-- A node with an element around its children. -/
theorem HoldsNoText.of_element {data : Node} {tag : String} {attributes : List (String × String)}
    (htext : data.text = "") (helement : data.element = some { tag, attributes })
    (htag : tag ∉ tags) : data.HoldsNoText tags where
  text _ := htext
  content _ := by rw [helement]; rintro _ ⟨⟩; rfl
  untagged := by rw [helement]; rintro _ ⟨⟩; exact htag

/-- A node that can have children has nothing to show for itself. -/
theorem HoldsNoText.literal_eq {data : Node} (hdata : data.HoldsNoText tags)
    (hkind : data.kind.canHaveChildren = true) : data.literal = "" := by
  rw [literal]
  cases helement : data.element with
  | none => exact hdata.text hkind
  | some element =>
      have hcontent := hdata.content hkind element helement
      simp [hcontent]

/-- A heading with its element is no title. -/
theorem HoldsNoText.slugged {data : Node} {level : HeadingLevel} (hdata : data.HoldsNoText tags)
    (hlevel : data.kind.headingLevel? = some level) (slug : String) :
    HoldsNoText ["h1"]
      { data with
        element := some
          { tag := "h" ++ toString level.number, attributes := [("id", slug)] } } := by
  have hkind : data.kind.canHaveChildren = true := by
    cases hkind : data.kind <;> rw [hkind] at hlevel <;> first | rfl | cases hlevel
  refine .of_element (hdata.text hkind) rfl ?_
  cases level <;> decide

/-- Fewer tags are out of bounds. -/
theorem HoldsNoText.of_subset {fewer : List String} (hsubset : fewer ⊆ tags) {data : Node}
    (hdata : data.HoldsNoText tags) : data.HoldsNoText fewer :=
  ⟨hdata.text, hdata.content, fun element hmem htag =>
    hdata.untagged element hmem (hsubset htag)⟩

theorem stable_mute : Rule.Stable (Mute tags) where
  fewer hdata _ := hdata
  text _ htext hdata := .of_leaf htext.canHaveChildren hdata.untagged
  span _ hdata := ⟨hdata.text, hdata.content, hdata.untagged⟩
  paragraph _ _ := .of_bare rfl fun _ => rfl
  quote _ _ hdata := hdata

end Node

theorem Tree.mute_elementLeaf {tags : List String} {tag : String}
    {attributes : List (String × String)} {content : Option String} (htag : tag ∉ tags) :
    (elementLeaf { tag, attributes, content }).Obeys (Mute tags) := by
  refine obeys_node.mpr ⟨.of_leaf rfl ?_, obeys_nil⟩
  rintro _ ⟨⟩
  exact htag

/-! ## Before the notes -/

theorem Kind.canHaveChildren_of_raw {kind : Kind} (hraw : kind.isProcessed = false) :
    kind.canHaveChildren = false := by
  cases kind <;> first | rfl | cases hraw

theorem Tree.Grammatical.mute {tags : List String} {source : Source} {tree : Tree}
    (htree : tree.Grammatical) (hbuilt : tree.Obeys (Built source)) : tree.Obeys (Mute tags) := by
  induction htree with
  | leaf lexeme haggregate _ =>
      have hkind := Kind.canHaveChildren_of_raw (hbuilt.data.raw haggregate)
      exact obeys_leafOf (.of_leaf hkind nofun)
  | aggregate aggregate opener closer children _ _ ih =>
      have hchildren := obeys_iff.mp (obeys_node.mp hbuilt).2
      exact obeys_node.mpr ⟨.of_bare rfl fun _ => rfl,
        obeys_iff.mpr fun child hchild => ih child hchild (hchildren child hchild)⟩

namespace Forest

variable {source : Source} {tags : List String}

/-- Lexemes nest into a forest whose text is held by leaves. -/
theorem mute_ofLexemes {body : Forest} (hbody : ofLexemes source.lexemes = .ok body) :
    body.Obeys (Mute tags) := by
  have hgrammatical := ((ofLexemes_eq_ok_iff source.isRaw_lexemes body).mp hbody).1
  have hbuilt := built_ofLexemes hbody
  exact obeys_iff.mpr fun tree htree =>
    (hgrammatical tree htree).mute (obeys_iff.mp hbuilt tree htree)

theorem Obeys.mute_lifted {body : Forest} (hbody : body.Obeys (Mute tags)) :
    Forest.Obeys (Mute tags) (Directive.body source body.pruneEmpty.1) :=
  (Tree.forestObeys_pruneEmpty (fun hdata _ => hdata) hbody).subset List.filter_sublist.subset

end Forest

/-! ## Notes, links and embeds -/

namespace Note

variable {tags : List String} (hapart : ∀ tag ∈ noteTags, tag ∉ tags)

include hapart

theorem mute_referenceTree (note : Note) (index : Nat) {data : Node}
    (hkind : data.kind = .aggregate (.bracket .noteRef)) (hdata : data.HoldsNoText tags) :
    (note.referenceTree index data).Obeys (Mute tags) := by
  have htext : data.text = "" := hdata.text (by rw [hkind]; rfl)
  exact Tree.obeys_node.mpr ⟨.of_element htext rfl (hapart "sup" (by decide)), obeys_cons.mpr
    ⟨Tree.mute_elementLeaf (hapart "a" (by decide)), obeys_nil⟩⟩

theorem mute_sectionOf (notes : List Note) : (sectionOf notes).Obeys (Mute tags) := by
  have hdiv : "div" ∉ tags := hapart "div" (by decide)
  refine obeys_sectionOf notes (.of_bare rfl fun _ => rfl) (.of_bare rfl nofun)
    (.of_element rfl rfl hdiv) fun data kinds hnode => ?_
  cases hnode with
  | entry | body => exact .of_element rfl rfl hdiv
  | name content => exact .of_leaf rfl (by rintro _ ⟨⟩; exact hdiv)
  | backlink href label => exact .of_leaf rfl (by rintro _ ⟨⟩; exact hapart "a" (by decide))
  | text => exact .of_bare rfl nofun

/-- Resolving the notes leaves all text to leaves. -/
theorem mute_resolve (definitions : List Directive) {body : Forest}
    (hbody : body.Obeys (Mute tags)) : (resolve definitions body).1.Obeys (Mute tags) := by
  have hkept : (withoutUndefined definitions body).1.Obeys (Mute tags) :=
    obeys_dropUndefined stable_mute.wears _ hbody
  rw [resolve_eq]
  dsimp only
  split
  next => exact hkept
  next =>
    refine obeys_append.mpr ⟨?_, mute_sectionOf hapart _⟩
    exact Rule.Tame.forestObeys_rewriteNoteRefs (fun hdata _ => hdata)
      (fun note index _ _ hkind hdata => mute_referenceTree hapart note index hkind hdata) hkept

end Note

namespace Forest

variable {body : Forest}

theorem Obeys.mute_resolveExternals {tags : List String} (hapart : ∀ tag ∈ noteTags, tag ∉ tags)
    (hbody : body.Obeys (Mute tags)) : (Link.resolveExternals body).1.Obeys (Mute tags) := by
  refine Tree.forestObeys_expand (fun _ _ _ hdata => hdata) (fun tree answer _ hsome => ?_) hbody
  cases (Link.answers_of_resolveExternal? hsome).2 with
  | removed => exact obeys_nil
  | leaf =>
      refine obeys_cons.mpr ⟨Tree.obeys_node.mpr ⟨.of_leaf rfl ?_, obeys_nil⟩, obeys_nil⟩
      rintro _ ⟨⟩
      exact hapart "a" (by decide)

theorem mute_figure (embed : Embed) (media : Media) (width : Nat) {data : Node}
    (htext : data.text = "") : (embed.figure media width data).Obeys (Mute headingTags) :=
  Tree.obeys_node.mpr ⟨.of_element htext rfl (by decide), obeys_cons.mpr
    ⟨Tree.obeys_node.mpr ⟨.of_element rfl rfl (by decide), obeys_cons.mpr
      ⟨Tree.mute_elementLeaf (by decide), obeys_nil⟩⟩, obeys_cons.mpr
    ⟨Tree.mute_elementLeaf (by decide), obeys_nil⟩⟩⟩

theorem Obeys.mute_resolveAll (registries : Registries) (hbody : body.Obeys (Mute headingTags)) :
    (Embed.resolveAll registries body).1.Obeys (Mute headingTags) := by
  refine Tree.forestObeys_expand (fun _ _ _ hdata => hdata)
    (fun tree answer htree hsome => ?_) hbody
  obtain ⟨hkind, hanswers⟩ := Embed.answers_of_resolve? hsome
  cases hanswers with
  | removed => exact obeys_nil
  | figure =>
      have htext : tree.data.text = "" :=
        htree.data.text (by rw [show tree.data.kind = _ from hkind]; rfl)
      exact obeys_cons.mpr ⟨mute_figure _ _ _ htext, obeys_nil⟩

/-! ## Headings and lowering -/

theorem Obeys.mute_dropBlankHeadings (hbody : body.Obeys (Mute headingTags)) :
    body.dropBlankHeadings.1.Obeys (Mute headingTags) :=
  hbody.dropBlankHeadings stable_mute.wears fun hdata _ _ => hdata

theorem Obeys.mute_slugHeadings (hbody : body.Obeys (Mute headingTags)) :
    body.slugHeadings.1.Obeys (Mute ["h1"]) :=
  Tree.forestObeys_slugHeadings
    (fun _ _ _ slug hdata hlevel => HoldsNoText.slugged hdata hlevel slug)
    (fun _ _ hdata _ => HoldsNoText.of_subset (by decide) hdata) _ hbody

theorem mute_lowerNode {data : Node} (hdata : data.HoldsNoText ["h1"]) {lowered : Forest}
    (hlowered : lowered.Obeys (Mute ["h1"])) :
    (Tree.lowerNode data lowered).Obeys (Mute ["h1"]) := by
  have hother : ∀ tag ∈ loweredTags, tag ∉ ["h1"] := by decide
  have hlowers := Tree.lowers_lowerNode data lowered
  generalize Tree.lowerNode data lowered = tree at hlowers ⊢
  cases hlowers with
  | done => exact Tree.obeys_node.mpr ⟨hdata, hlowered⟩
  | heading level hkind =>
      have hcan : data.kind.canHaveChildren = true := by rw [hkind]; rfl
      exact Tree.obeys_node.mpr
        ⟨⟨fun _ => hdata.text hcan, fun _ => hdata.content hcan, hdata.untagged⟩, hlowered⟩
  | tagged htag =>
      exact Tree.obeys_node.mpr
        ⟨.of_element (hdata.text htag.canHaveChildren) rfl (hother _ htag.mem_loweredTags), hlowered⟩
  | emBold hkind =>
      have hcan := (Kind.TakesTag.of_emBold hkind).canHaveChildren
      refine Tree.obeys_node.mpr ⟨.of_element (hdata.text hcan) rfl (by decide), ?_⟩
      refine obeys_cons.mpr ⟨?_, obeys_nil⟩
      exact Tree.obeys_node.mpr ⟨.of_element rfl rfl (by decide), hlowered⟩
  | text => exact Tree.obeys_node.mpr ⟨.of_leaf rfl nofun, hlowered⟩

theorem Obeys.mute_lower (hbody : body.Obeys (Mute ["h1"])) : body.lower.Obeys (Mute ["h1"]) :=
  Tree.forestObeys_lower (fun _ _ _ hdata _ hlowered => mute_lowerNode hdata hlowered) hbody

theorem Obeys.mute_arranged (hbody : body.Obeys (Mute headingTags)) :
    body.arranged.Obeys (Mute headingTags) :=
  Obeys.arranged stable_mute hbody

theorem Obeys.mute_resolved (registries : Registries) (definitions : List Directive)
    (hbody : body.Obeys (Mute headingTags)) :
    (body.resolved registries definitions).Obeys (Mute headingTags) :=
  (((Note.mute_resolve (by decide) definitions hbody).mute_resolveExternals
    (by decide)).mute_resolveAll registries).mute_dropBlankHeadings

/-! ## Pages -/

/-- Without its directives, a forest that passes the check is sound. -/
theorem sound_lifted {source : Source} {forest : Forest}
    (hforest : ofLexemes source.lexemes = .ok forest) (hcheck : forest.check = .ok ()) :
    Forest.Obeys (Sound liftedKinds) (Directive.body source forest.pruneEmpty.1) := by
  have hrun : (Draft.runPasses source Registries.empty [.validate, .prune, .directives]
      { body := forest }).2 = .ok ((Draft.prune { body := forest }).1.liftDirectives source).1 := by
    simp [Draft.runPasses, Pass.run, hcheck, Except.map]
  exact (Draft.sound_of_lifted (built_ofLexemes hforest) hrun).1

theorem Obeys.sound_resolved (registries : Registries) (definitions : List Directive)
    (hbody : body.Obeys (Sound liftedKinds)) :
    (body.resolved registries definitions).Obeys (Sound embeddedKinds) := by
  have hstable : Rule.Stable (Sound embeddedKinds) := .sound (by decide)
  exact (Embed.sound_resolveAll registries (Link.sound_resolveExternals
    (Note.sound_resolve definitions hbody))).dropBlankHeadings hstable.wears
      fun hdata _ => hstable.fewer hdata

end Forest

end PageMarkup
