import PageMarkup.Proofs.Html.Decoding
import PageMarkup.Proofs.Page.Ids

/-! # A page under its title

The heading that shows the title of a page is a leaf that is ready for output. In front of
a page it stays out of everything that the passes do after it was put there.
-/

namespace PageMarkup

open Node Forest

/-- Whether the tree is a leaf that is ready for output. -/
def Tree.Inert (tree : Tree) : Prop := tree.kind = .ready ∧ tree.children = []

namespace Tree

variable {p : Tree → Bool}

theorem forestFindPath?_succ (index : Nat) (forest : Forest) :
    forestFindPath? p (index + 1) forest =
      (forestFindPath? p index forest).map (List.modifyHead (· + 1)) := by
  induction forest generalizing index with
  | nil => rfl
  | cons tree rest ih =>
      rw [forestFindPath?, forestFindPath?]
      cases findPath? p tree with
      | some path => rfl
      | none => exact ih (index + 1)

theorem Inert.subtrees {tree : Tree} (hinert : tree.Inert) : tree.subtrees = [tree] := by
  obtain ⟨data, children⟩ := tree
  obtain rfl : children = [] := hinert.2
  rw [Tree.subtrees_node]
  simp

end Tree

namespace Forest

variable {p : Tree → Bool} {tree : Tree}

theorem removeAt_cons (path : List Nat) (tree : Tree) (forest : Forest) :
    removeAt (path.modifyHead (· + 1)) (tree :: forest) =
      { removeAt path forest with rest := tree :: (removeAt path forest).rest } := by
  cases path with
  | nil => rfl
  | cons index path =>
      rw [List.modifyHead_cons, removeAt, removeAt, List.getElem?_cons_succ]
      cases forest[index]? with
      | none => rfl
      | some found =>
          dsimp only
          rw [List.eraseIdx_cons_succ]
          by_cases hpath : path.isEmpty = true
          · rw [if_pos hpath, if_pos hpath]
          · rw [if_neg hpath, if_neg hpath, List.set_cons_succ]
            generalize removeAt path found.children = inner
            generalize (if inner.cut = true then settle found.data inner.rest else inner.rest) = left
            by_cases hgoes :
                inner.cut = true ∧ goesWhenEmpty found.data = true ∧ List.isEmpty left = true
            · rw [if_pos hgoes, if_pos hgoes]
            · rw [if_neg hgoes, if_neg hgoes]

/-- Taking trees out leaves a tree in front alone that does not satisfy the predicate. -/
theorem removeTimes_cons (htree : Lacks p [tree]) (count : Nat) (forest : Forest) :
    removeTimes p count (tree :: forest) =
      (tree :: (removeTimes p count forest).1,
        (removeTimes p count forest).2.map fun removal =>
          { removal with rest := tree :: removal.rest }) := by
  induction count generalizing forest with
  | zero => rfl
  | succ count ih =>
      have hfind : Tree.forestFindPath? p 0 (tree :: forest) =
          (Tree.forestFindPath? p 0 forest).map (List.modifyHead (· + 1)) := by
        rw [← List.singleton_append, Tree.forestFindPath?_append_of_lacks htree]
        exact Tree.forestFindPath?_succ 0 forest
      rw [removeTimes, removeTimes, hfind]
      cases Tree.forestFindPath? p 0 forest with
      | none => rfl
      | some path =>
          simp only [Option.map_some, removeAt_cons, ih]
          rfl

theorem removeWhere_cons (htree : Lacks p [tree]) (forest : Forest) :
    removeWhere p (tree :: forest) =
      (tree :: (removeWhere p forest).1,
        (removeWhere p forest).2.map fun removal =>
          { removal with rest := tree :: removal.rest }) := by
  have hcount : (Forest.subtrees (tree :: forest)).countP p = forest.subtrees.countP p := by
    rw [← List.singleton_append, subtrees_append, List.countP_append,
      List.countP_eq_zero.mpr fun other hmem => by simp [htree other hmem], Nat.zero_add]
  rw [removeWhere, hcount, removeTimes_cons htree, removeWhere]

theorem notices_removeWhere_cons (htree : Lacks p [tree]) (forest : Forest) :
    (removeWhere p (tree :: forest)).2.flatMap Removal.notices =
      (removeWhere p forest).2.flatMap Removal.notices := by
  rw [removeWhere_cons htree, List.flatMap_map]
  rfl

/-- A tree that is ready does not satisfy a predicate that asks for another kind. -/
theorem lacks_of_inert (htree : tree.Inert) (hp : ∀ tree, p tree = true → tree.kind ≠ .ready) :
    Lacks p [tree] := by
  intro other hmem
  rw [← List.append_nil [tree], List.singleton_append, subtrees_cons, htree.subtrees] at hmem
  have hself : other = tree := by simpa using hmem
  by_contra hother
  rw [Bool.not_eq_false] at hother
  exact hp other hother (hself ▸ htree.1)

end Forest

namespace Note

variable {tree : Tree}

theorem references_cons (htree : tree.Inert) (forest : Forest) :
    Forest.references (tree :: forest) = forest.references := by
  have hnot : tree.isNoteRef = false := by simp [Tree.isNoteRef, htree.1]
  rw [Forest.references, Forest.matching_cons, hnot, htree.2, Forest.matching_nil]
  rfl

theorem dropUndefined_cons (htree : tree.Inert) (names : List String) (forest : Forest) :
    dropUndefined names (tree :: forest) =
      (tree :: (dropUndefined names forest).1, (dropUndefined names forest).2) := by
  induction names generalizing forest with
  | nil => rfl
  | cons name names ih =>
      have hlacks : Forest.Lacks (Tree.refersTo name) [tree] := by
        refine Forest.lacks_of_inert htree fun other hother hkind => ?_
        simp [Tree.refersTo, Tree.isNoteRef, hkind] at hother
      have hnotices := Forest.notices_removeWhere_cons hlacks forest
      simp only [dropUndefined, find?_refersTo, references_cons htree]
      rw [hnotices, Forest.removeWhere_cons hlacks]
      dsimp only
      rw [ih]

theorem forestRewriteNoteRefs_cons (htree : tree.Inert) (notes : List Note) (seen : List String)
    (forest : Forest) :
    Tree.forestRewriteNoteRefs notes seen (tree :: forest) =
      (tree :: (Tree.forestRewriteNoteRefs notes seen forest).1,
        (Tree.forestRewriteNoteRefs notes seen forest).2) := by
  obtain ⟨data, children⟩ := tree
  obtain rfl : children = [] := htree.2
  have hnot : (Tree.node data []).isNoteRef = false := by
    simp [Tree.isNoteRef, show (Tree.node data []).kind = _ from htree.1]
  rw [Tree.forestRewriteNoteRefs, Tree.rewriteNoteRefs]
  simp [hnot, Tree.forestRewriteNoteRefs]

/-- Resolving the notes of a page leaves its title in front. -/
theorem resolve_cons (htree : tree.Inert) (definitions : List Directive) (body : Forest) :
    resolve definitions (tree :: body) =
      (tree :: (resolve definitions body).1, (resolve definitions body).2) := by
  have hnames : referenceNames (tree :: body) = referenceNames body := by
    rw [Forest.referenceNames_eq, references_cons htree, Forest.referenceNames_eq]
  simp only [resolve, hnames, dropUndefined_cons htree, forestRewriteNoteRefs_cons htree]
  split <;> rfl

end Note

namespace Tree

variable {tree : Tree}

theorem forestExpand_cons {f : Tree → Option (Forest × List Notice)} (htree : tree.Inert)
    (hnone : f tree = none) (forest : Forest) :
    forestExpand f (tree :: forest) = (tree :: (forestExpand f forest).1, (forestExpand f forest).2) := by
  obtain ⟨data, children⟩ := tree
  obtain rfl : children = [] := htree.2
  simp [forestExpand, expand, hnone]

end Tree

theorem Link.resolveExternals_cons {tree : Tree} (htree : tree.Inert) (body : Forest) :
    resolveExternals (tree :: body) =
      (tree :: (resolveExternals body).1, (resolveExternals body).2) := by
  refine Tree.forestExpand_cons htree (resolveExternal?_eq_none_iff.mpr ?_) body
  rw [htree.1]
  nofun

theorem Embed.resolveAll_cons {tree : Tree} (htree : tree.Inert) (registries : Registries)
    (body : Forest) :
    resolveAll registries (tree :: body) =
      (tree :: (resolveAll registries body).1, (resolveAll registries body).2) := by
  refine Tree.forestExpand_cons htree (resolve?_eq_none_iff.mpr ?_) body
  rw [htree.1]
  nofun

namespace Forest

variable {tree : Tree}

theorem dropBlankHeadings_cons (htree : tree.Inert) (body : Forest) :
    dropBlankHeadings (tree :: body) =
      (tree :: (dropBlankHeadings body).1, (dropBlankHeadings body).2) := by
  have htrimmed : Tree.forestTrimHeadings (tree :: body) = tree :: Tree.forestTrimHeadings body := by
    obtain ⟨data, children⟩ := tree
    obtain rfl : children = [] := htree.2
    have hlevel : data.kind.headingLevel?.isSome = false := by
      rw [show data.kind = _ from htree.1]
      rfl
    simp [Tree.forestTrimHeadings, Tree.trimHeadings, hlevel]
  have hlacks : Lacks (fun tree => tree.isHeading && tree.isLeaf) [tree] := by
    refine lacks_of_inert htree fun other hother hkind => ?_
    rw [Bool.and_eq_true, Tree.isHeading, hkind] at hother
    cases hother.1
  rw [dropBlankHeadings, htrimmed, removeWhere_cons hlacks]
  simp only [dropBlankHeadings, List.flatMap_map]
  rfl

theorem slugHeadings_cons (htree : tree.Inert)
    (hid : ∀ id ∈ tree.data.id?, id ∈ fixedIds) (body : Forest) :
    slugHeadings (tree :: body) = (tree :: (slugHeadings body).1, (slugHeadings body).2) := by
  have hslugger : reservingSlugger (tree :: body) = body.reservingSlugger := by
    have hids : ids (tree :: body) = tree.data.id?.toList ++ body.ids := by
      obtain ⟨data, children⟩ := tree
      obtain rfl : children = [] := htree.2
      rw [ids_eq_census, census_cons, ids_eq_census, census_nil, List.nil_append]
      rfl
    -- The ids of the tree are taken before it is asked, so they are taken only once.
    have hown : tree.data.id?.toList.removeAll fixedIds = [] := by
      rw [List.removeAll, List.filter_eq_nil_iff]
      intro id hmem
      simpa using hid id (Option.mem_toList.mp hmem)
    have htaken : (fixedIds ++ (tree.data.id?.toList ++ body.ids)).eraseDups =
        (fixedIds ++ body.ids).eraseDups := by
      rw [List.eraseDups_append, List.eraseDups_append, List.removeAll, List.filter_append,
        ← List.removeAll, hown, List.nil_append, ← List.removeAll]
    rw [reservingSlugger, hids, htaken, reservingSlugger]
  obtain ⟨data, children⟩ := tree
  obtain rfl : children = [] := htree.2
  have hlevel : data.kind.headingLevel? = none := by
    rw [show data.kind = _ from htree.1]
    rfl
  simp [slugHeadings, hslugger, Tree.forestSlugHeadings, Tree.slugHeadings, hlevel]

theorem lower_cons (htree : tree.Inert) (body : Forest) :
    lower (tree :: body) = tree :: body.lower := by
  obtain ⟨data, children⟩ := tree
  obtain rfl : children = [] := htree.2
  rw [lower, Tree.forestLower, Tree.lower, Tree.forestLower, Tree.lowerNode,
    show data.kind = _ from htree.1]
  rfl

end Forest

namespace PageTitle

theorem inert_ofDirective (centered : Bool) (directive : Directive) :
    (ofDirective centered directive).heading.Inert := ⟨rfl, rfl⟩

theorem id_ofDirective (centered : Bool) (directive : Directive) :
    ∀ id ∈ (ofDirective centered directive).heading.data.id?, id ∈ fixedIds := by
  rintro _ ⟨⟩
  exact List.mem_cons_self

/-- A title that is read is that of a directive. -/
theorem exists_directive {centered : Bool} {directives : List Directive} {title : PageTitle}
    {notices : List Notice} (htitle : ofDirectives? centered directives = some (title, notices)) :
    ∃ directive, title = ofDirective centered directive := by
  cases directives with
  | nil => cases htitle
  | cons first others =>
      cases htitle
      exact ⟨first, rfl⟩

end PageTitle

namespace Draft

variable {source : Source} {registries : Registries} {draft : Draft}

/-- The heading of the title, if there is one, and the body. -/
def page (draft : Draft) : Forest := (draft.title.map PageTitle.heading).toList ++ draft.body

/-- Whatever title the draft has is that of a directive. -/
def Titled (draft : Draft) : Prop :=
  ∀ title ∈ draft.title, ∃ centered directive, title = PageTitle.ofDirective centered directive

theorem Titled.withBody (htitled : draft.Titled) (body : Forest) :
    Titled { draft with body } := htitled

theorem page_of_untitled (huntitled : draft.title = none) : draft.page = draft.body := by
  rw [page, huntitled]
  rfl

/-- What leaves inert trees in front alone does to the page what it does to the body. -/
theorem page_map (htitled : draft.Titled) {α : Type} (op : Forest → Forest × α)
    (hcons : ∀ tree body, tree.Inert → (∀ id ∈ tree.data.id?, id ∈ fixedIds) →
      op (tree :: body) = (tree :: (op body).1, (op body).2)) :
    op draft.page = (page { draft with body := (op draft.body).1 }, (op draft.body).2) := by
  rw [page, page]
  cases htitle : draft.title with
  | none => rfl
  | some title =>
      obtain ⟨centered, directive, rfl⟩ := htitled title htitle
      exact hcons _ _ (PageTitle.inert_ofDirective ..)
        (PageTitle.id_ofDirective centered directive)

/-- A page under a title is as sound as its body. -/
theorem page_sound (htitled : draft.Titled) {gone : List Kind}
    (hbody : draft.body.Obeys (Sound gone)) : draft.page.Obeys (Sound []) := by
  have hbody : draft.body.Obeys (Sound []) :=
    Tree.forestObeys_mono (fun _ _ hdata => hdata.of_subset (List.nil_subset gone)) hbody
  rw [page]
  cases htitle : draft.title with
  | none => exact hbody
  | some title =>
      obtain ⟨centered, directive, rfl⟩ := htitled title htitle
      refine obeys_cons.mpr ⟨Tree.obeys_node.mpr ⟨sound_ready List.not_mem_nil rfl ?_, obeys_nil⟩, hbody⟩
      exact (PageTitle.finished_ofDirective centered directive).data.named

/-- Only one pass gives a title. -/
theorem title_run_of_ne {pass : Pass} (hpass : pass ≠ .title) {next : Draft}
    {notices : List Notice} (hrun : pass.run source registries draft = .ok (next, notices)) :
    next.title = draft.title := by
  cases pass with
  | validate =>
      obtain ⟨-, rfl, -⟩ := validate_eq_ok hrun
      rfl
  | title => exact absurd rfl hpass
  | _ =>
      cases hrun
      rfl

/-- There is no title before its pass. -/
theorem untitled_runPasses {passes : List Pass} (hpasses : .title ∉ passes) {body : Forest}
    (hrun : (runPasses source registries passes { body }).2 = .ok draft) : draft.title = none := by
  refine runPasses_invariant (P := fun draft => draft.title = none) ?_ hrun rfl
  intro pass hmem draft next notices huntitled hnext
  exact (title_run_of_ne (fun heq => hpasses (heq ▸ hmem)) hnext).trans huntitled

theorem titled_runPasses {passes : List Pass} {body : Forest}
    (hrun : (runPasses source registries passes { body }).2 = .ok draft) : draft.Titled :=
  fun _ htitle => title_runPasses hrun rfl htitle

end Draft

end PageMarkup
