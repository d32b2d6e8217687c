import PageMarkup.Proofs.Note.Ids
import PageMarkup.Proofs.Page.Finish

/-! # Ids of pages

On the way to a document only notes, headings and the title get ids. Links, embeds and
blank headings go without taking an id with them. Headings are slugged last, by a slugger
that knows all other ids, but it compares plain slugs only.
-/

namespace PageMarkup

open Node Forest

/-! ## Where ids are -/

/-- What has an id is a container. -/
def Node.Anchored : Rule := fun data _ => data.id?.isSome = true → data.kind = .container

namespace Node

theorem Anchored.ownId_eq_nil {tree : Tree} {kinds : List Kind} (hdata : Anchored tree.data kinds)
    (hkind : tree.kind ≠ .container) : tree.ownId = [] := by
  have hnone : ¬tree.data.id?.isSome = true := fun hsome => hkind (hdata hsome)
  rw [Tree.ownId, Option.toList_eq_nil_iff]
  exact Option.not_isSome_iff_eq_none.mp hnone

theorem Sound.anchored {data : Node} {kinds : List Kind} (hdata : Sound liftedKinds data kinds) :
    Anchored data kinds := by
  intro hsome
  rw [Node.id?, hdata.element_eq_none] at hsome
  cases hsome

end Node

namespace Note

theorem anchored_sectionOf (notes : List Note) : (sectionOf notes).Obeys Anchored := by
  refine obeys_sectionOf notes nofun nofun (fun _ => rfl) fun data kinds hnode => ?_
  cases hnode with
  | entry | body => exact fun _ => rfl
  | name | backlink | text => simp [Anchored, Node.id?, Element.attribute?]

/-- Resolving notes gives ids to containers only. -/
theorem anchored_resolve (definitions : List Directive) {body : Forest}
    (hbody : body.Obeys (Sound liftedKinds)) :
    (resolve definitions body).1.Obeys Anchored := by
  have hkept : (withoutUndefined definitions body).1.Obeys Anchored :=
    Tree.forestObeys_mono (fun _ _ hdata => hdata.anchored)
      (obeys_dropUndefined (Rule.Stable.sound (by decide)).wears _ hbody)
  rw [resolve_eq]
  dsimp only
  split
  next => exact hkept
  next =>
    refine obeys_append.mpr ⟨?_, anchored_sectionOf _⟩
    refine Rule.Tame.forestObeys_rewriteNoteRefs (fun hdata _ => hdata) ?_ hkept
    intro note index data _ _ _
    simp [referenceTree, Tree.elementLeaf, Tree.leaf, Anchored, Node.id?, Element.attribute?]

end Note

/-! ## Links, embeds and blank headings -/

section Replacing

variable {gone : List Kind}

/-- Nothing in a sound bracket has an id. -/
theorem Tree.census_ownId_of_flat {tree : Tree} (hsound : tree.Obeys (Sound gone))
    (hanchored : tree.Obeys Anchored) (hflat : tree.kind.flat = true) :
    census Tree.ownId [tree] = [] := by
  obtain ⟨data, children⟩ := tree
  have hkind : (node data children).kind ≠ .container := by
    intro hcontainer
    rw [hcontainer] at hflat
    cases hflat
  have hchildren : census Tree.ownId children = [] := by
    rw [census_eq_flatMap]
    refine List.flatMap_eq_nil_iff.mpr fun child hmem => ?_
    have hleaf := hsound.data.flat hflat child.kind (List.mem_map_of_mem hmem)
    have hdata := (obeys_iff.mp hanchored.children child hmem).data
    have hempty := (obeys_iff.mp hsound.children child hmem).data.childless hleaf
    have hown : child.ownId = [] := by
      refine hdata.ownId_eq_nil fun hcontainer => ?_
      rw [hcontainer] at hleaf
      cases hleaf
    obtain ⟨inner, grandchildren⟩ := child
    obtain rfl : grandchildren = [] := List.map_eq_nil_iff.mp hempty
    rw [census_cons, hown, census_nil]
    rfl
  rw [census_cons, hanchored.data.ownId_eq_nil hkind, hchildren, census_nil]
  rfl

/-- Putting trees without ids in the place of brackets keeps the ids. -/
theorem Tree.ids_forestExpand {h : Tree → Option (Forest × List Notice)}
    (hanswer : ∀ tree answer, h tree = some answer →
      tree.kind.flat = true ∧ ids answer.1 = [])
    {forest : Forest} (hsound : forest.Obeys (Sound gone)) (hanchored : forest.Obeys Anchored) :
    ids (forestExpand h forest).1 = forest.ids := by
  rw [ids_eq_census, ids_eq_census]
  refine census_forestExpand (Q := fun _ => True) (fun tree answer htree hsome _ => ?_)
    (fun _ _ _ _ => rfl) (forestObeys_and hsound hanchored) fun _ _ => trivial
  obtain ⟨hflat, hnone⟩ := hanswer tree answer hsome
  rw [← ids_eq_census, hnone, census_ownId_of_flat (htree.mono fun _ _ hdata => hdata.1)
    (htree.mono fun _ _ hdata => hdata.2) hflat]

end Replacing

namespace Link

theorem ids_resolveExternals {body : Forest} (hbody : body.Obeys (Sound resolvedKinds))
    (hanchored : body.Obeys Anchored) : (resolveExternals body).1.ids = body.ids := by
  refine Tree.ids_forestExpand (fun tree answer hsome => ?_) hbody hanchored
  obtain ⟨hkind, hanswers⟩ := answers_of_resolveExternal? hsome
  refine ⟨by rw [hkind]; rfl, ?_⟩
  cases hanswers with
  | removed | leaf => rfl

theorem anchored_resolveExternals {body : Forest} (hanchored : body.Obeys Anchored) :
    (resolveExternals body).1.Obeys Anchored := by
  refine Tree.forestObeys_expand (fun _ _ _ hdata => hdata)
    (fun tree answer _ hsome => ?_) hanchored
  cases (answers_of_resolveExternal? hsome).2 with
  | removed => exact obeys_nil
  | leaf => simp [Tree.leaf, Anchored, Node.id?, Element.attribute?, newContextAttributes]

end Link

namespace Embed

theorem ids_resolveAll (registries : Registries) {body : Forest} (hbody : body.Obeys (Sound linkedKinds))
    (hanchored : body.Obeys Anchored) : (resolveAll registries body).1.ids = body.ids := by
  refine Tree.ids_forestExpand (fun tree answer hsome => ?_) hbody hanchored
  obtain ⟨hkind, hanswers⟩ := answers_of_resolve? hsome
  refine ⟨by rw [hkind]; rfl, ?_⟩
  cases hanswers with
  | removed | figure => rfl

theorem anchored_resolveAll (registries : Registries) {body : Forest} (hanchored : body.Obeys Anchored) :
    (resolveAll registries body).1.Obeys Anchored := by
  refine Tree.forestObeys_expand (fun _ _ _ hdata => hdata)
    (fun tree answer _ hsome => ?_) hanchored
  cases (answers_of_resolve? hsome).2 with
  | removed => exact obeys_nil
  | figure =>
      simp [figure, Tree.container, Tree.elementLeaf, Tree.leaf, Anchored, Node.id?,
        Element.attribute?, Link.newContextAttributes]

end Embed

namespace Node

theorem wears_anchored : Rule.Wears Anchored where
  text _ _ hdata := hdata
  loss hdata _ _ _ := hdata

theorem not_container_of_goesWhenEmpty {kind : Kind} (hgoes : kind.goesWhenEmpty = true) :
    kind ≠ .container := by
  rintro rfl
  cases hgoes

/-- What goes when it is empty has no id. -/
theorem spares_anchored : Rule.Spares Anchored Tree.ownId where
  text tree hleaf := by
    obtain ⟨data, children⟩ := tree
    cases children with
    | nil =>
        rw [Tree.isTextLeaf, Bool.and_eq_true, Option.isNone_iff_eq_none] at hleaf
        rw [Tree.ownId, Node.id?, Tree.data_node, hleaf.1]
        rfl
    | cons => cases hleaf
  same _ _ _ _ := rfl
  gone data children hdata _ hgoes :=
    Anchored.ownId_eq_nil hdata (not_container_of_goesWhenEmpty hgoes)
  kept _ _ _ _ _ _ := rfl

end Node

/-- Blank headings take no id with them. -/
theorem Forest.ids_dropBlankHeadings {body : Forest} (hanchored : body.Obeys Anchored) :
    body.dropBlankHeadings.1.ids = body.ids := by
  rw [ids_eq_census, ids_eq_census]
  refine Tree.census_dropBlankHeadings wears_anchored (fun hdata _ _ => hdata) spares_anchored
    (fun _ _ _ _ => rfl) (fun data hdata hlevel => ?_) hanchored
  exact Anchored.ownId_eq_nil hdata
    (not_container_of_goesWhenEmpty (Kind.goesWhenEmpty_of_heading hlevel))

/-! ## Headings -/

namespace Tree

mutual

/-- Headings get the slugs that their texts draw, whatever is drawn after them. -/
theorem anchors_slugHeadings (slugger : Slugger) (tree : Tree) (texts : List String) :
    Note.anchors slugger ((tree.slugHeadings slugger).2.1.map (·.text) ++ texts) =
      (tree.slugHeadings slugger).2.1.map (·.slug) ++
        Note.anchors (tree.slugHeadings slugger).2.2 texts := by
  obtain ⟨data, children⟩ := tree
  rw [slugHeadings]
  split
  next level _ =>
    have hchildren := anchors_forestSlugHeadings
      (slugger.next (textContent (.node data children))).2 children texts
    simpa [Note.anchors] using hchildren
  next => exact anchors_forestSlugHeadings slugger children texts

theorem anchors_forestSlugHeadings (slugger : Slugger) (forest : Forest) (texts : List String) :
    Note.anchors slugger ((forestSlugHeadings slugger forest).2.1.map (·.text) ++ texts) =
      (forestSlugHeadings slugger forest).2.1.map (·.slug) ++
        Note.anchors (forestSlugHeadings slugger forest).2.2 texts := by
  cases forest with
  | nil => rfl
  | cons tree rest =>
      rw [forestSlugHeadings]
      dsimp only
      rw [List.map_append, List.map_append, List.append_assoc, List.append_assoc,
        anchors_slugHeadings slugger tree, anchors_forestSlugHeadings _ rest]

end

mutual

/-- Headings add their slugs to the ids. -/
theorem perm_slugHeadings (slugger : Slugger) {tree : Tree} (htree : tree.Obeys Anchored) :
    (census ownId [(tree.slugHeadings slugger).1]).Perm
      (census ownId [tree] ++ (tree.slugHeadings slugger).2.1.map (·.slug)) := by
  obtain ⟨data, children⟩ := tree
  rw [slugHeadings]
  split
  next level hlevel =>
    have hchildren := perm_forestSlugHeadings
      (slugger.next (textContent (.node data children))).2 htree.children
    have hgoes : data.kind.goesWhenEmpty = true :=
      Kind.goesWhenEmpty_of_heading (by rw [hlevel]; rfl)
    have hown := htree.data.ownId_eq_nil (not_container_of_goesWhenEmpty hgoes)
    rw [census_cons, census_cons, hown, census_nil, List.append_nil, List.nil_append,
      List.append_nil, List.map_cons]
    exact (hchildren.cons _).trans List.perm_middle.symm
  next =>
    have hchildren := perm_forestSlugHeadings slugger htree.children
    simp only [census_cons, census_nil, List.append_nil]
    exact (hchildren.append_left _).trans (by rw [List.append_assoc]; rfl)

theorem perm_forestSlugHeadings (slugger : Slugger) {forest : Forest}
    (hforest : forest.Obeys Anchored) :
    (census ownId (forestSlugHeadings slugger forest).1).Perm
      (census ownId forest ++ (forestSlugHeadings slugger forest).2.1.map (·.slug)) := by
  cases forest with
  | nil => exact List.Perm.refl _
  | cons tree rest =>
      obtain ⟨htree, hrest⟩ := obeys_cons.mp hforest
      rw [forestSlugHeadings]
      dsimp only
      rw [census_singleton_append, census_singleton_append tree, List.map_append]
      have htree := perm_slugHeadings slugger htree
      have hrest := perm_forestSlugHeadings (slugHeadings slugger tree).2.2 hrest
      refine (htree.append hrest).trans ?_
      rw [List.append_assoc, List.append_assoc]
      refine List.Perm.append_left _ ?_
      rw [← List.append_assoc, ← List.append_assoc]
      exact List.perm_append_comm.append_right _

end

end Tree

namespace Forest

/-- Lowering keeps the ids of containers and headings. -/
theorem ids_lower {body : Forest} (hbody : body.Obeys fun data _ =>
      data.id?.isSome = true → data.kind = .container ∨ data.kind.headingLevel?.isSome = true) :
    body.lower.ids = body.ids := by
  rw [ids_eq_census, ids_eq_census]
  refine Tree.census_forestLower (fun data children lowered hdata _ => ?_) hbody
  have hnone : data.kind ≠ .container → data.kind.headingLevel? = none →
      (Tree.node data children).ownId = [] := by
    intro hcontainer hlevel
    rw [Tree.ownId, Option.toList_eq_nil_iff]
    by_contra hsome
    rcases hdata (Option.isSome_iff_ne_none.mpr hsome) with hkind | hkind
    · exact hcontainer hkind
    · rw [hlevel] at hkind
      cases hkind
  have htagged : ∀ tag others, census Tree.ownId [Tree.tagged tag data others] =
      census Tree.ownId others := by
    intro tag others
    rw [Tree.tagged, census_cons, census_nil, List.append_nil]
    rfl
  have hlowers := Tree.lowers_lowerNode data lowered
  generalize Tree.lowerNode data lowered = tree at hlowers ⊢
  cases hlowers with
  | done => simp [census_cons, Tree.ownId]
  | heading => simp [census_cons, Tree.ownId, Node.id?]
  | tagged htag =>
      rw [htagged, hnone htag.ne_container htag.headingLevel?_eq_none, List.nil_append]
  | emBold hkind =>
      have htag := Kind.TakesTag.of_emBold hkind
      rw [htagged, hnone htag.ne_container htag.headingLevel?_eq_none, Tree.container, census_cons,
        census_nil, List.append_nil]
      rfl
  | text hkind =>
      rw [hnone hkind.container hkind.heading, census_cons, census_nil, List.append_nil]
      rfl

/-- Slugging and lowering a page adds the slugs of its headings to its ids. -/
theorem perm_ids_slugged {body : Forest} (hanchored : body.Obeys Anchored) :
    (body.slugHeadings.1.lower.ids).Perm (body.ids ++ body.slugHeadings.2.map (·.slug)) := by
  have hslugged : body.slugHeadings.1.Obeys fun data _ =>
      data.id?.isSome = true → data.kind = .container ∨ data.kind.headingLevel?.isSome = true :=
    Tree.forestObeys_slugHeadings (fun _ _ level _ _ hlevel _ => .inr (by rw [hlevel]; rfl))
      (fun _ _ hdata _ hsome => .inl (hdata hsome)) _ hanchored
  rw [ids_lower hslugged, ids_eq_census, ids_eq_census]
  exact Tree.perm_forestSlugHeadings _ hanchored

/-- The slugs of headings are drawn one after the other, by a slugger that knows all ids. -/
theorem slugs_slugHeadings (body : Forest) :
    body.slugHeadings.2.map (·.slug) =
      Note.anchors body.reservingSlugger (body.slugHeadings.2.map (·.text)) := by
  have hall := Tree.anchors_forestSlugHeadings body.reservingSlugger body []
  rw [List.append_nil, Note.anchors, List.append_nil] at hall
  exact hall.symm

theorem taken_reservingSlugger (body : Forest) :
    body.reservingSlugger.taken = (fixedIds ++ body.ids).eraseDups.reverse := by
  have hfold : ∀ (slugs : List String) (slugger : Slugger),
      (slugs.foldl Slugger.reserve slugger).taken = slugs.reverse ++ slugger.taken := by
    intro slugs
    induction slugs with
    | nil => exact fun _ => rfl
    | cons slug rest ih =>
        intro slugger
        rw [List.foldl_cons, ih, Slugger.reserve, List.reverse_cons, List.append_assoc]
        rfl
  rw [reservingSlugger, hfold]
  exact List.append_nil _

end Forest

namespace Note

/-- The ids that headings may not take on a page with the given notes. -/
def heldIds (notes : List Note) : List String := (fixedIds ++ ids notes).eraseDups

/-- The ids of a page whose headings are slugged after those of its notes are different
unless plain slugs clash, those of the notes or those of the headings with the ids that
are held. -/
theorem nodup_page_iff {notes : List Note} {slugger : Slugger}
    (htaken : slugger.taken.Perm (heldIds notes)) (texts : List String) :
    ("article-title" :: (ids notes ++ anchors slugger texts)).Nodup ↔
      (ids notes).Nodup ∧ ¬Slugger.Clash (heldIds notes ++ texts.map baseSlug) := by
  have hnodup : slugger.taken.Nodup := htaken.nodup_iff.mpr (nodup_eraseDups _)
  have hmem : ∀ id, id ∈ slugger.taken ↔ id ∈ fixedIds ∨ id ∈ ids notes := by
    intro id
    rw [htaken.mem_iff, heldIds, List.mem_eraseDups, List.mem_append]
  have hlist : "bottom-refs" ∉ anchors slugger texts :=
    Slugger.notMem_anchors (show "bottom-refs".toList = "bottom".toList ++ '-' :: "refs".toList from rfl) (by decide)
      ⟨'r', by decide, by decide⟩ ((hmem _).mpr (.inl (by decide))) texts
  have hdrawn := Slugger.nodup_anchors_iff hnodup texts
  rw [Slugger.clash_perm (htaken.append_right _), List.nodup_append'] at hdrawn
  rw [← hdrawn, List.nodup_cons, List.mem_append, not_or, List.nodup_append']
  constructor
  · rintro ⟨⟨-, htitle⟩, hids, hslugs, hapart⟩
    refine ⟨hids, hnodup, hslugs, fun id hheld hslug => ?_⟩
    rcases (hmem id).mp hheld with hfixed | hid
    · simp only [fixedIds, List.mem_cons, List.not_mem_nil, or_false] at hfixed
      rcases hfixed with rfl | rfl
      · exact htitle hslug
      · exact hlist hslug
    · exact hapart hid hslug
  · rintro ⟨hids, -, hslugs, hapart⟩
    refine ⟨⟨title_notMem_ids notes, fun hslug => ?_⟩, hids, hslugs, fun id hid hslug => ?_⟩
    · exact hapart ((hmem _).mpr (.inl (by decide))) hslug
    · exact hapart ((hmem id).mpr (.inr hid)) hslug

end Note

namespace Draft

variable {source : Source} {registries : Registries}

/-- The notes that the pass for notes resolves on a page. -/
def notes (draft : Draft) : List Note :=
  Note.collect (Note.referenceNames draft.body) draft.definitions (Note.names draft.body)

/-- The passes after that for notes add the slugs of the headings to the ids. -/
theorem ids_after_notes {draft final : Draft} (hdraft : draft.body.Obeys (Sound resolvedKinds))
    (hanchored : draft.body.Obeys Anchored)
    (hrun : (runPasses source registries afterNotes draft).2 = .ok final) :
    ∃ slugger : Slugger, (∀ id, id ∈ slugger.taken ↔ id ∈ fixedIds ++ draft.body.ids) ∧
      slugger.taken.Nodup ∧
      final.headings.map (·.slug) = Note.anchors slugger (final.headings.map (·.text)) ∧
      final.body.ids.Perm (draft.body.ids ++ final.headings.map (·.slug)) := by
  have hlinked := Link.sound_resolveExternals hdraft
  have hlinkedIds := Link.ids_resolveExternals hdraft hanchored
  have hlinkedAnchored := Link.anchored_resolveExternals hanchored
  have hembeddedIds := Embed.ids_resolveAll registries hlinked hlinkedAnchored
  have hembeddedAnchored := Embed.anchored_resolveAll registries hlinkedAnchored
  have hids : (draft.unlowered registries).ids = draft.body.ids := by
    rw [Draft.unlowered, ids_dropBlankHeadings hembeddedAnchored, hembeddedIds, hlinkedIds]
  have hkept : (draft.unlowered registries).Obeys Anchored :=
    hembeddedAnchored.dropBlankHeadings wears_anchored fun hdata _ _ => hdata
  obtain ⟨hbody, hheadings⟩ := body_after_notes hrun
  rw [hbody, hheadings]
  refine ⟨(draft.unlowered registries).reservingSlugger, fun id => ?_, ?_, slugs_slugHeadings _,
    hids ▸ perm_ids_slugged hkept⟩
  · rw [taken_reservingSlugger, List.mem_reverse, List.mem_eraseDups, hids]
  · rw [taken_reservingSlugger, List.nodup_reverse]
    exact Note.nodup_eraseDups _

end Draft

open Draft

/-- The ids of a compiled page are that of the title, those of its notes and the slugs of
its headings. With `draft` the page that the pass for notes finds, they are different
unless plain slugs clash, those of the notes with each other or those of the headings with
each other and with the ids that headings may not take. -/
theorem Source.compile_ids {source : Source} {registries : Registries} {document : Document}
    (hcompile : (source.compile registries).2 = .ok document) :
    ∃ body draft,
      Forest.ofLexemes source.lexemes = .ok body ∧
      (runPasses source registries beforeNotes { body }).2 = .ok draft ∧
      (ids (document.title.heading :: document.body)).Perm
        ("article-title" :: (Note.ids draft.notes ++ document.headings.map (·.slug))) ∧
      ((ids (document.title.heading :: document.body)).Nodup ↔
        ¬Slugger.Clash (draft.notes.map fun note => baseSlug note.name) ∧
        ¬Slugger.Clash (Note.heldIds draft.notes ++
          (document.headings.map (·.text)).map baseSlug)) := by
  obtain ⟨body, final, hbody, hrun, hfinish, -⟩ := compile_eq_ok hcompile
  obtain ⟨htitle, hfinal, hheadings⟩ := finish_eq_ok hfinish
  obtain ⟨centered, directive, hread⟩ := title_runPasses hrun rfl htitle
  obtain ⟨draft, next, notices, hbefore, -, hlast, hsound, hresolve⟩ :=
    cut_at_notes hbody hrun
  have hnext : next.body = (Note.resolve draft.definitions draft.body).1 := by rw [hresolve]
  have hresolved : next.body.Obeys (Sound resolvedKinds) := hnext ▸ Note.sound_resolve _ hsound
  have hanchored : next.body.Obeys Anchored := hnext ▸ Note.anchored_resolve _ hsound
  have hids : next.body.ids.Perm (Note.ids draft.notes) := hnext ▸ Note.ids_resolve _ hsound
  obtain ⟨slugger, htaken, hnodup, hslugs, hperm⟩ := ids_after_notes hresolved hanchored hlast
  have hheld : slugger.taken.Perm (Note.heldIds draft.notes) := by
    refine (List.perm_ext_iff_of_nodup hnodup (Note.nodup_eraseDups _)).mpr fun id => ?_
    rw [htaken, List.mem_append, hids.mem_iff, ← List.mem_append, ← List.mem_eraseDups]
  have hall : (ids (document.title.heading :: document.body)).Perm
      ("article-title" :: (Note.ids draft.notes ++ document.headings.map (·.slug))) := by
    have htitleId : ids [document.title.heading] = ["article-title"] := by
      rw [hread]
      rfl
    rw [ids_eq_census, census_singleton_append, ← ids_eq_census, ← ids_eq_census, htitleId, hfinal,
      hheadings]
    exact (hperm.trans (hids.append_right _)).cons _
  refine ⟨body, draft, hbody, hbefore, hall, ?_⟩
  rw [hall.nodup_iff, hheadings, hslugs, Note.nodup_page_iff hheld, Draft.notes,
    Note.nodup_ids_collect_iff]

/-- A page whose third heading reads like the second with its suffix. -/
def Slugger.clashExample : Source :=
  ⟨#["!", "t", "i", "t", "l", "e", " ", "T", "\n", "=", "=", "a", "=", "=", "\n", "=", "=", "a",
    "=", "=", "\n", "=", "=", "a", "-", "1", "=", "="]⟩

/-- Two of its headings get one id. -/
theorem Source.compile_ids_clash :
    ∃ document, (Slugger.clashExample.compile Registries.empty).2 = .ok document ∧
      ids (document.title.heading :: document.body) = ["article-title", "a", "a-1", "a-1"] ∧
      ¬(ids (document.title.heading :: document.body)).Nodup := by
  have hids : ((Slugger.clashExample.compile Registries.empty).2.map fun document =>
      ids (document.title.heading :: document.body)).toOption =
        some ["article-title", "a", "a-1", "a-1"] := by decide +kernel
  cases hcompile : (Slugger.clashExample.compile Registries.empty).2 with
  | error fault =>
      rw [hcompile] at hids
      cases hids
  | ok document =>
      rw [hcompile] at hids
      have hids : ids (document.title.heading :: document.body) =
          ["article-title", "a", "a-1", "a-1"] := Option.some.inj hids
      refine ⟨document, rfl, hids, ?_⟩
      rw [hids]
      decide

/-- That is because their plain slugs clash with each other. -/
theorem Source.compile_ids_of_clash :
    ∃ (document : Document) (body : Forest) (draft : Draft),
      (Slugger.clashExample.compile Registries.empty).2 = .ok document ∧
      Forest.ofLexemes Slugger.clashExample.lexemes = .ok body ∧
      (runPasses Slugger.clashExample Registries.empty beforeNotes { body }).2 = .ok draft ∧
      (¬(ids (document.title.heading :: document.body)).Nodup →
        Slugger.Clash (draft.notes.map fun note => baseSlug note.name) ∨
        Slugger.Clash (Note.heldIds draft.notes ++
          (document.headings.map (·.text)).map baseSlug)) := by
  have hok : (Slugger.clashExample.compile Registries.empty).2.isOk = true := by decide +kernel
  cases hcompile : (Slugger.clashExample.compile Registries.empty).2 with
  | error fault =>
      rw [hcompile] at hok
      cases hok
  | ok document =>
      obtain ⟨body, draft, hbody, hbefore, -, hiff⟩ := Source.compile_ids hcompile
      refine ⟨document, body, draft, rfl, hbody, hbefore, fun hdup => ?_⟩
      by_contra hclash
      exact hdup (hiff.mpr (not_or.mp hclash))

end PageMarkup
