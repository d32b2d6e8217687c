import PageMarkup.Proofs.Arena.Visiting
import PageMarkup.Proofs.Page.Finish

/-! # Links and embeds in an arena

The nodes of a kind are listed before the first of them is replaced. None of them is
below another, so none of them goes before its turn, and replacing them one by one leads
to the same forest as expanding it.
-/

namespace PageMarkup

open NumberedForest Node

namespace Arena

variable {arena : Arena} {frame : Frame} {place : Place}
  {before after siblings : NumberedForest} {tree : NumberedTree} {kind : Kind}

theorem ofKind_append {parent previous following : Option Nat} {forest : NumberedForest}
    (hlinked : Linked arena parent previous following forest) {ids found : List Nat}
    (hids : arena.ofKind kind ids = .ok found) :
    arena.ofKind kind (forest.ids ++ ids) = .ok (forest.ofKind kind ++ found) := by
  induction forest using NumberedForest.induction
    generalizing parent previous following ids found with
  | nil => simpa using hids
  | cons id data children rest ihchildren ihrest =>
      obtain ⟨hcell, hchildren, hrest⟩ := linked_cons.mp hlinked
      have hbelow := ihchildren hchildren (ihrest hrest hids)
      rw [ids_cons, List.cons_append, List.append_assoc, Arena.ofKind, get_eq hcell, ok_bind,
        hbelow, ok_bind]
      rw [ofKind_cons]
      split <;> simp

/-- The numbers of a kind are found in document order. -/
theorem Holds.ofKind {forest : NumberedForest} (hholds : Holds arena forest)
    (hkind : kind ≠ .documentRoot) :
    arena.ofKind kind (root :: forest.ids) = .ok (forest.ofKind kind) := by
  have hnil : arena.ofKind kind [] = .ok [] := by rw [Arena.ofKind]; rfl
  have hids := ofKind_append hholds.linked hnil
  simpa [Place.plug_cons, top, ofKind_cons, hkind.symm] using hids

/-- Nodes that cannot have children have none below them that can. -/
theorem ofKind_eq_nil_of_leaves {gone : List Kind} {forest : NumberedForest}
    (hforest : forest.erase.Obeys (Sound gone))
    (hleaves : ∀ other ∈ forest.erase.kinds, other.canHaveChildren = false)
    (hkind : kind.canHaveChildren = true) : forest.ofKind kind = [] := by
  induction forest using NumberedForest.induction with
  | nil => exact ofKind_nil kind
  | cons id data children rest _ ihrest =>
      rw [erase_cons, Forest.obeys_cons] at hforest
      rw [erase_cons, Forest.kinds, List.map_cons, List.forall_mem_cons] at hleaves
      have hchildren := hforest.1.data.childless hleaves.1
      obtain rfl : children = [] := by simpa [Forest.kinds] using hchildren
      have hne : data.kind ≠ kind := fun heq => by
        have hnot : data.kind.canHaveChildren = false := hleaves.1
        rw [heq, hkind] at hnot
        cases hnot
      rw [ofKind_cons, if_neg hne, ofKind_nil, ihrest hforest.2 hleaves.2]
      rfl

namespace Stores

/-- Visiting the nodes of a kind one by one leads where expanding leads, if a visit puts
the answer in the place of the node. -/
theorem visit_expand {gone : List Kind} {act : Arena → Nat → Except ArenaFault (Arena × List Notice)}
    {expand : Tree → Option (Forest × List Notice)}
    (hact : ∀ {arena frame place before after tree answer},
      Stores arena (Place.plug (frame :: place) (before ++ tree :: after)) →
      expand tree.erase = some answer → ∃ next added, act arena tree.id = .ok (next, answer.2) ∧
        NumberedForest.erase added = answer.1 ∧
        Stores next (Place.plug (frame :: place) (before ++ added ++ after)))
    (hanswer : ∀ tree, expand tree = none ↔ tree.kind ≠ kind) (hflat : kind.flat = true)
    (hkind : kind.canHaveChildren = true) (hsound : siblings.erase.Obeys (Sound gone))
    (hstores : Stores arena (Place.plug (frame :: place) (before ++ siblings ++ after))) :
    ∃ next kept, arena.visit act (siblings.ofKind kind) =
        .ok (next, (Tree.forestExpand expand siblings.erase).2) ∧
      NumberedForest.erase kept = (Tree.forestExpand expand siblings.erase).1 ∧
      Stores next (Place.plug (frame :: place) (before ++ kept ++ after)) := by
  induction siblings using NumberedForest.induction generalizing arena frame place before after with
  | nil =>
      refine ⟨arena, [], ?_, ?_, hstores⟩
      · simp [Tree.forestExpand]
      · simp [Tree.forestExpand]
  | cons id data children rest ihchildren ihrest =>
      rw [erase_cons, Forest.obeys_cons] at hsound
      rw [ofKind_cons, erase_cons, Tree.forestExpand, Tree.expand]
      dsimp only
      cases hexpand : expand (.node data children.erase) with
      | some answer =>
          have heq : data.kind = kind := by
            by_contra hne
            rw [(hanswer (.node data children.erase)).mpr hne] at hexpand
            cases hexpand
          have hbelow : children.ofKind kind = [] :=
            ofKind_eq_nil_of_leaves hsound.1.children (hsound.1.data.flat (heq ▸ hflat)) hkind
          have hnode : Stores arena (Place.plug (frame :: place)
              (before ++ .node id data children :: (rest ++ after))) := by simpa using hstores
          obtain ⟨visited, added, hvisit, herase, hstores⟩ := hact hnode hexpand
          rw [← List.append_assoc] at hstores
          obtain ⟨next, kept, hrest, heraseRest, hstores⟩ := ihrest hsound.2 hstores
          refine ⟨next, added ++ kept, ?_, ?_, by simpa using hstores⟩
          · rw [if_pos heq, hbelow, List.nil_append]
            exact visit_append (visit_singleton hvisit) hrest
          · rw [erase_append, herase, heraseRest]
      | none =>
          have hne : data.kind ≠ kind := (hanswer _).mp hexpand
          rw [← Place.plug_below] at hstores
          obtain ⟨visited, inner, hvisit, herase, hstores⟩ := ihchildren hsound.1.children hstores
          rw [Place.plug_below, ← Place.plug_beside] at hstores
          obtain ⟨next, kept, hrest, heraseRest, hstores⟩ := ihrest hsound.2 hstores
          refine ⟨next, .node id data inner :: kept, ?_, ?_, by simpa using hstores⟩
          · rw [if_neg hne, List.nil_append]
            exact visit_append hvisit hrest
          · rw [erase_cons, herase, heraseRest, List.singleton_append]

end Stores

/-- Expanding the nodes of a kind in an arena expands the forest in it. -/
theorem Holds.visit_expand {gone : List Kind} {forest : NumberedForest}
    {act : Arena → Nat → Except ArenaFault (Arena × List Notice)}
    {expand : Tree → Option (Forest × List Notice)}
    (hact : ∀ {arena frame place before after tree answer},
      Stores arena (Place.plug (frame :: place) (before ++ tree :: after)) →
      expand tree.erase = some answer → ∃ next added, act arena tree.id = .ok (next, answer.2) ∧
        NumberedForest.erase added = answer.1 ∧
        Stores next (Place.plug (frame :: place) (before ++ added ++ after)))
    (hanswer : ∀ tree, expand tree = none ↔ tree.kind ≠ kind) (hflat : kind.flat = true)
    (hkind : kind.canHaveChildren = true) (hsound : forest.erase.Obeys (Sound gone))
    (hholds : Holds arena forest) :
    ∃ next kept, arena.visit act (forest.ofKind kind) =
        .ok (next, (Tree.forestExpand expand forest.erase).2) ∧
      NumberedForest.erase kept = (Tree.forestExpand expand forest.erase).1 ∧ Holds next kept := by
  obtain ⟨next, kept, hvisit, herase, hstores⟩ :=
    hholds.belowRoot.visit_expand hact hanswer hflat hkind hsound
  exact ⟨next, kept, hvisit, herase, by simpa using hstores⟩

/-! ## Links -/

/-- Resolving the link at a node puts the answer in its place. -/
theorem Stores.resolveLink {answer : Forest × List Notice}
    (hstores : Stores arena (Place.plug (frame :: place) (before ++ tree :: after)))
    (hanswer : Link.resolveExternal? tree.erase = some answer) :
    ∃ next added, arena.resolveLink tree.id = .ok (next, answer.2) ∧
      NumberedForest.erase added = answer.1 ∧
      Stores next (Place.plug (frame :: place) (before ++ added ++ after)) := by
  obtain ⟨cell, hcell, hdata, -, -⟩ := hstores.exists_get
  rw [Arena.resolveLink, hstores.textContent, ok_bind, hcell]
  cases (Link.answers_of_resolveExternal? hanswer).2 with
  | removed hempty =>
      dsimp only
      rw [ok_bind, hdata, if_pos hempty]
      obtain ⟨next, hremove, hstores⟩ := hstores.remove
      exact ⟨next, [], by rw [hremove]; rfl, erase_nil, by simpa using hstores⟩
  | leaf htarget hfull =>
      rw [htarget]
      dsimp only
      rw [ok_bind, hdata, if_neg (Bool.eq_false_iff.mp hfull)]
      obtain ⟨next, added, hnext, -, herase, hstores⟩ := hstores.overwrite _
      refine ⟨next, [added], by rw [hnext]; rfl, ?_, by simpa using hstores⟩
      rw [erase_cons_eq, herase, erase_nil]
      rfl

/-- Resolving the links of an arena resolves those of the forest in it. -/
theorem Holds.resolveLinks {gone : List Kind} {forest : NumberedForest}
    (hsound : forest.erase.Obeys (Sound gone)) (hholds : Holds arena forest) :
    ∃ next kept, arena.resolveLinks = .ok (next, (Link.resolveExternals forest.erase).2) ∧
      NumberedForest.erase kept = (Link.resolveExternals forest.erase).1 ∧ Holds next kept := by
  rw [Arena.resolveLinks, hholds.descendants, ok_bind, hholds.ofKind (by decide), ok_bind]
  exact hholds.visit_expand Stores.resolveLink (fun _ => Link.resolveExternal?_eq_none_iff)
    (by decide) (by decide) hsound

/-! ## Embeds -/

variable {registries : Registries}

/-- Resolving the embed at a node puts the answer in its place. -/
theorem Stores.resolveEmbed {answer : Forest × List Notice}
    (hstores : Stores arena (Place.plug (frame :: place) (before ++ tree :: after)))
    (hanswer : Embed.resolve? registries tree.erase = some answer) :
    ∃ next added, arena.resolveEmbed registries tree.id = .ok (next, answer.2) ∧
      NumberedForest.erase added = answer.1 ∧
      Stores next (Place.plug (frame :: place) (before ++ added ++ after)) := by
  obtain ⟨cell, hcell, hdata, -, -⟩ := hstores.exists_get
  rw [Arena.resolveEmbed, hcell, ok_bind, hstores.textContent, ok_bind, hdata]
  cases (Embed.answers_of_resolve? hanswer).2 with
  | removed hunknown =>
      dsimp only
      rw [hunknown]
      obtain ⟨next, hremove, hstores⟩ := hstores.remove
      exact ⟨next, [], by rw [hremove]; rfl, erase_nil, by simpa using hstores⟩
  | figure hembed hmedia =>
      dsimp only
      rw [hembed, hmedia]
      obtain ⟨next, added, hnext, -, herase, hstores⟩ := hstores.overwrite _
      refine ⟨next, [added], by dsimp only; rw [hnext]; rfl, ?_, by simpa using hstores⟩
      rw [erase_cons_eq, herase, erase_nil]
      rfl

/-- Resolving the embeds of an arena resolves those of the forest in it. -/
theorem Holds.resolveEmbeds (registries : Registries) {gone : List Kind} {forest : NumberedForest}
    (hsound : forest.erase.Obeys (Sound gone)) (hholds : Holds arena forest) :
    ∃ next kept, arena.resolveEmbeds registries =
        .ok (next, (Embed.resolveAll registries forest.erase).2) ∧
      NumberedForest.erase kept = (Embed.resolveAll registries forest.erase).1 ∧
      Holds next kept := by
  rw [Arena.resolveEmbeds, hholds.descendants, ok_bind, hholds.ofKind (by decide), ok_bind]
  exact hholds.visit_expand Stores.resolveEmbed (fun _ => Embed.resolve?_eq_none_iff)
    (by decide) (by decide) hsound

end Arena

end PageMarkup
