import PageMarkup.Proofs.Arena.Marking
import PageMarkup.Proofs.Arena.Trimming

/-! # Taking out a node and what it empties, in full

What removing a node does to the ordered forest of an arena, when the ancestors go that this
leaves empty. The ancestors go one after the other, the nearest first, up to the one that stays.
Each paragraph on the way sheds the blank text leaves that are at its edges once the child is
gone, and the one that stays is trimmed. Nothing else is touched, and where no node was without
children that it should have, none is afterwards.
-/

namespace PageMarkup

open NumberedForest

/-- The number of a node that goes when it is empty, if it is empty. -/
def NumberedTree.vacant (tree : NumberedTree) : List Nat :=
  if Forest.goesWhenEmpty tree.data ∧ tree.children.isEmpty then [tree.id] else []

namespace OrderedForest

variable {forest next : OrderedForest} {siblings front kept back gone removed : List Nat}
  {id child above stop other : Nat}

/-! ## Edges -/

/-- The node is a blank text leaf at an edge of some siblings. -/
def AtEdge (forest : OrderedForest) (siblings : List Nat) (id : Nat) : Prop :=
  ∃ front kept back, forest.CutAtEdges siblings front kept back ∧ id ∈ front ++ back

/-- What is cut off is the longest blank front and the longest blank tail. -/
theorem CutAtEdges.mem_iff (hcut : forest.CutAtEdges siblings front kept back) :
    id ∈ front ++ back ↔
      id ∈ siblings.takeWhile forest.isBlankLeaf ∨ id ∈ siblings.rtakeWhile forest.isBlankLeaf := by
  obtain ⟨rfl, hfront, hback, hfirst, hlast⟩ := hcut
  by_cases hnil : kept = []
  · -- Every sibling is blank, and the front and the tail are both all of them.
    have hall : ∀ other ∈ front ++ back, forest.isBlankLeaf other := fun other hother =>
      (List.mem_append.mp hother).elim (hfront other) (hback other)
    rw [hnil, List.append_nil, List.takeWhile_eq_self_iff.mpr hall,
      List.rtakeWhile_eq_self_iff.mpr hall, or_self]
  · have htail : (back.reverse ++ kept.reverse ++ front.reverse).takeWhile forest.isBlankLeaf =
        back.reverse :=
      Text.takeWhile_of_cut (fun other hother => hback other (List.mem_reverse.mp hother))
        (mt List.reverse_eq_nil_iff.mp hnil) (List.head?_reverse ▸ hlast)
    rw [Text.takeWhile_of_cut hfront hnil hfirst, List.rtakeWhile, List.reverse_append,
      List.reverse_append, ← List.append_assoc, htail, List.reverse_reverse, List.mem_append]

theorem CutAtEdges.atEdge_iff (hcut : forest.CutAtEdges siblings front kept back) :
    forest.AtEdge siblings id ↔ id ∈ front ++ back := by
  constructor
  · rintro ⟨front', kept', back', hcut', hid⟩
    exact hcut.mem_iff.mpr (hcut'.mem_iff.mp hid)
  · exact fun hid => ⟨front, kept, back, hcut, hid⟩

/-- Siblings that are all blank are all at the edge. -/
theorem atEdge_of_blank (hblank : ∀ id ∈ siblings, forest.isBlankLeaf id) :
    forest.AtEdge siblings id ↔ id ∈ siblings := by
  have hcut : forest.CutAtEdges siblings siblings [] [] :=
    ⟨by simp, hblank, by simp, by simp, by simp⟩
  rw [hcut.atEdge_iff, List.append_nil]

theorem CutAtEdges.congr (hcut : forest.CutAtEdges siblings front kept back)
    (hsame : ∀ id ∈ siblings, next.isBlankLeaf id = forest.isBlankLeaf id) :
    next.CutAtEdges siblings front kept back := by
  obtain ⟨rfl, hfront, hback, hfirst, hlast⟩ := hcut
  simp only [List.mem_append, or_imp, forall_and] at hsame
  obtain ⟨⟨hsameFront, hsameKept⟩, hsameBack⟩ := hsame
  refine ⟨rfl, fun id hid => ?_, fun id hid => ?_, fun id hid => ?_, fun id hid => ?_⟩
  · rw [hsameFront id hid]
    exact hfront id hid
  · rw [hsameBack id hid]
    exact hback id hid
  · rw [hsameKept id (List.mem_of_head? hid)]
    exact hfirst id hid
  · rw [hsameKept id (List.mem_of_getLast? hid)]
    exact hlast id hid

/-! ## Cascades -/

/-- No node that goes when it is empty is empty. -/
def Full (forest : OrderedForest) : Prop :=
  ∀ id entry, forest id = some entry → Forest.goesWhenEmpty entry.data → entry.children ≠ []

/-- Taking out the first node empties the second, its parent: that goes when it is empty, and it
has no other children, or it is a paragraph and has nothing but blank text leaves beside. The root
is never emptied. -/
def Empties (forest : OrderedForest) (child above : Nat) : Prop :=
  forest.Parent above child ∧ above ≠ Arena.root ∧ ∃ entry, forest above = some entry ∧
    Forest.goesWhenEmpty entry.data ∧
    ∀ other ∈ entry.children.erase child, entry.data.kind = .paragraph ∧ forest.isBlankLeaf other

/-- Taking out the first node sheds the second: their parent is a paragraph, and without the first
the second is a blank text leaf at an edge of it. -/
def Sheds (forest : OrderedForest) (child other : Nat) : Prop :=
  ∃ above entry, forest.Parent above child ∧ above ≠ Arena.root ∧ forest above = some entry ∧
    entry.data.kind = .paragraph ∧ forest.AtEdge (entry.children.erase child) other

/-- Taking out a node empties some of its ancestors, one after the other and the nearest first, and
the next one stays. -/
structure Cascade (forest : OrderedForest) (id : Nat) (gone : List Nat) (stop : Nat)
    (removed : List Nat) : Prop where
  /-- Each of the nodes that go is the parent of the one before it and is emptied by that. -/
  chain : (id :: gone).IsChain forest.Empties
  /-- The next ancestor is not emptied. -/
  stops : ∃ last ∈ (id :: gone).getLast?, forest.Parent stop last ∧ ¬ forest.Empties last stop
  /-- So it stays. -/
  stays : stop ∉ removed
  /-- Besides the ancestors, what goes is what is below the node and what is shed. -/
  mem_removed : ∀ other, other ∈ removed ↔
    forest.Below id other ∨ other ∈ gone ∨ ∃ child ∈ id :: gone, forest.Sheds child other

/-- The parent of the node stays. -/
theorem Cascade.of_stays (hparent : forest.Parent above id) (hnot : ¬ forest.Empties id above)
    (hstays : above ∉ removed)
    (hremoved : ∀ other, other ∈ removed ↔ forest.Below id other ∨ forest.Sheds id other) :
    forest.Cascade id [] above removed where
  chain := .singleton id
  stops := ⟨id, rfl, hparent, hnot⟩
  stays := hstays
  mem_removed other := by simp [hremoved]

/-- The parent of the node goes, with what is below it. -/
theorem Cascade.of_goes (hempties : forest.Empties id above)
    (hbelow : ∀ other, forest.Below above other ↔
      other = above ∨ forest.Below id other ∨ forest.Sheds id other)
    (hcascade : forest.Cascade above gone stop removed) :
    forest.Cascade id (above :: gone) stop removed where
  chain := hcascade.chain.cons_cons hempties
  stops := by
    obtain ⟨last, hlast, hstops⟩ := hcascade.stops
    exact ⟨last, by rwa [List.getLast?_cons_cons], hstops⟩
  stays := hcascade.stays
  mem_removed other := by
    rw [hcascade.mem_removed, hbelow]
    simp only [List.mem_cons, exists_eq_or_imp]
    tauto

/-- The parents along a cascade are those that go and the one that stays. -/
theorem Cascade.parent_cases (hcascade : forest.Cascade id gone stop removed)
    (hchild : child ∈ id :: gone) (hparent : forest.Parent above child) :
    above ∈ gone ∨ above = stop := by
  have hchain := hcascade.chain
  have hstops := hcascade.stops
  clear hcascade
  induction gone generalizing id with
  | nil =>
      obtain ⟨last, hlast, hstop, -⟩ := hstops
      obtain rfl := Option.some.inj hlast
      obtain rfl := List.mem_singleton.mp hchild
      exact .inr (hparent.unique hstop)
  | cons next rest ih =>
      rw [List.getLast?_cons_cons] at hstops
      obtain ⟨hempties, hchain⟩ := List.isChain_cons_cons.mp hchain
      rcases List.mem_cons.mp hchild with rfl | hchild
      · obtain rfl := hparent.unique hempties.1
        exact .inl List.mem_cons_self
      · exact (ih hchild hchain hstops).imp_left (List.mem_cons_of_mem _)

/-- A node that stays, other than the nearest ancestor that stays, keeps its children. -/
theorem Cascade.children_kept (hcascade : forest.Cascade id gone stop removed)
    (hchildren : ∀ above entry, forest above = some entry → ∀ child ∈ entry.children,
      forest.Parent above child)
    (hkept : other ∉ removed) (hne : other ≠ stop) {entry : Entry}
    (hentry : forest other = some entry) :
    ∀ child ∈ entry.children, child ∉ removed := by
  intro child hchild hmem
  have hparent := hchildren other entry hentry child hchild
  have hnot : ∀ found ∈ id :: gone, ¬ forest.Parent other found := fun found hfound hother =>
    (hcascade.parent_cases hfound hother).elim
      (fun hgone => hkept ((hcascade.mem_removed other).mpr (.inr (.inl hgone)))) hne
  rcases (hcascade.mem_removed child).mp hmem with hbelow | hgone | ⟨found, hfound, hsheds⟩
  · obtain rfl | ⟨before, hbefore, hlast⟩ := hbelow.cases_tail
    · exact hnot _ List.mem_cons_self hparent
    · obtain rfl := hparent.unique hlast
      exact hkept ((hcascade.mem_removed other).mpr (.inl hbefore))
  · exact hnot child (List.mem_cons_of_mem _ hgone) hparent
  · obtain ⟨above, found', habove, -, hentry', -, front, kept, back, hcut, hedge⟩ := hsheds
    have hmem := List.mem_of_mem_erase (hcut.removed_subset hedge)
    obtain rfl := hparent.unique (hchildren above found' hentry' child hmem)
    exact hnot found hfound habove

/-- A node that is left has no other children than before. -/
theorem children_of_prune {entry : Entry} (hentry : forest.prune removed id = some entry) :
    ∃ before, forest id = some before ∧ entry.children ⊆ before.children := by
  rw [prune] at hentry
  split at hentry
  next => cases hentry
  next =>
    obtain ⟨before, hbefore, rfl⟩ := Option.map_eq_some_iff.mp hentry
    exact ⟨before, hbefore, List.filter_sublist.subset⟩

/-! ## The node that stays -/

/-- Trims the texts at the outer ends of the children of a node if it is a paragraph. The root is
left as it is. -/
def settle (forest : OrderedForest) (id : Nat) : OrderedForest :=
  match forest id with
  | some entry =>
    if id ≠ Arena.root ∧ entry.data.kind = .paragraph then forest.trimOuter entry.children
    else forest
  | none => forest

theorem settle_apply_of_not_mem (hnot : ∀ entry, forest id = some entry → other ∉ entry.children) :
    forest.settle id other = forest other := by
  rw [settle]
  cases hentry : forest id with
  | none => rfl
  | some entry =>
      have hnot := hnot entry hentry
      dsimp only
      split
      next =>
        exact trimOuter_apply_of_not_mem (fun hfirst => hnot (List.mem_of_head? hfirst))
          fun hlast => hnot (List.mem_of_getLast? hlast)
      next => rfl

theorem exists_of_settle {entry : Entry} (hentry : forest.settle id id = some entry) :
    ∃ before, forest id = some before := by
  rw [settle] at hentry
  cases hbefore : forest id with
  | none =>
      rw [hbefore] at hentry
      cases hbefore.symm.trans hentry
  | some before => exact ⟨before, rfl⟩

end OrderedForest

namespace NumberedForest

variable {siblings : NumberedForest} {data : Node}

theorem trimEdges_eq_nil_iff :
    siblings.trimEdges = [] ↔ ∀ tree ∈ siblings, tree.isBlankLeaf := by
  obtain ⟨front, kept, back, rfl, hfront, hback, hfirst, hlast⟩ :=
    exists_cut NumberedTree.isBlankLeaf siblings
  have hids : (NumberedForest.trimEdges (front ++ kept ++ back)).map NumberedTree.id =
      kept.map NumberedTree.id := by
    rw [trimEdges_append hfront hback hfirst hlast, map_id_trimLast, map_id_trimFirst]
  rw [← List.map_eq_nil_iff, hids, List.map_eq_nil_iff]
  constructor
  · rintro rfl tree hmem
    rw [List.append_nil, List.mem_append] at hmem
    exact hmem.elim (hfront tree) (hback tree)
  · intro hblank
    cases kept with
    | nil => rfl
    | cons first rest => exact absurd (hblank first (by simp)) (hfirst first rfl)

theorem settle_eq_nil_iff :
    siblings.settle data = [] ↔ ∀ tree ∈ siblings, data.kind = .paragraph ∧ tree.isBlankLeaf := by
  rw [settle]
  split
  next hkind => simp only [trimEdges_eq_nil_iff, hkind, true_and]
  next hkind =>
    simp only [hkind, false_and]
    exact List.eq_nil_iff_forall_not_mem

end NumberedForest

namespace OrderedForest

variable {forest : OrderedForest} {frame : Frame} {place : Place}
  {before after siblings : NumberedForest} {tree : NumberedTree} {other above : Nat}

/-- What is told of a node and of its parent. -/
theorem Lists.eq_above
    (hlists : forest.Lists ((Place.plug (frame :: place) siblings).entries none)) :
    forest frame.id = some ⟨frame.data, Place.parent place, siblings.map NumberedTree.id⟩ := by
  rw [Place.plug_cons] at hlists
  exact hlists.eq_entry

theorem Lists.settle_eq
    (hlists : forest.Lists ((Place.plug (frame :: place) siblings).entries none)) :
    forest.settle frame.id =
      if frame.id ≠ Arena.root ∧ frame.data.kind = .paragraph then
        forest.trimOuter (siblings.map NumberedTree.id)
      else forest := by
  rw [settle, hlists.eq_above]

theorem Lists.stays {removed : List Nat}
    (hlists : ((forest.prune removed).settle frame.id).Lists
      ((Place.plug (frame :: place) siblings).entries none)) : frame.id ∉ removed := by
  intro hmem
  obtain ⟨entry, hentry⟩ := exists_of_settle hlists.eq_above
  rw [OrderedForest.prune, if_pos hmem] at hentry
  cases hentry

section Beside

variable
  (hlists : forest.Lists ((Place.plug (frame :: place) (before ++ tree :: after)).entries none))

include hlists

theorem Lists.parent : forest.Parent frame.id tree.id := ⟨_, hlists.eq_entry, rfl⟩

theorem Lists.eq_of_parent (hparent : forest.Parent above tree.id) : above = frame.id := by
  obtain ⟨entry, hentry, habove⟩ := hparent
  obtain rfl := Option.some.inj (hlists.eq_entry.symm.trans hentry)
  exact (Option.some.inj habove).symm

theorem Lists.erase_children :
    ((before ++ tree :: after).map NumberedTree.id).erase tree.id =
      (before ++ after).map NumberedTree.id := by
  refine erase_map_id (List.Nodup.sublist (Place.ids_sublist_plug (frame :: place) _) ?_)
  rw [← map_fst_entries none]
  exact hlists.distinct

theorem Lists.isBlankLeaf_beside :
    ∀ sibling ∈ before ++ after, forest.isBlankLeaf sibling.id = sibling.isBlankLeaf := by
  intro sibling hmem
  refine hlists.isBlankLeaf_of_mem sibling ?_
  simp only [List.mem_append, List.mem_cons] at hmem ⊢
  tauto

theorem Lists.empties_iff :
    forest.Empties tree.id above ↔ above = frame.id ∧ frame.id ≠ Arena.root ∧
      Forest.goesWhenEmpty frame.data ∧ (before ++ after).settle frame.data = [] := by
  have hblank := hlists.isBlankLeaf_beside
  rw [settle_eq_nil_iff]
  constructor
  · rintro ⟨hparent, hroot, entry, hentry, hgoes, hothers⟩
    obtain rfl := hlists.eq_of_parent hparent
    obtain rfl := Option.some.inj (hlists.eq_above.symm.trans hentry)
    rw [hlists.erase_children, List.forall_mem_map] at hothers
    exact ⟨rfl, hroot, hgoes, fun sibling hmem => hblank sibling hmem ▸ hothers sibling hmem⟩
  · rintro ⟨rfl, hroot, hgoes, hothers⟩
    refine ⟨hlists.parent, hroot, _, hlists.eq_above, hgoes, ?_⟩
    rw [hlists.erase_children, List.forall_mem_map]
    exact fun sibling hmem => (hblank sibling hmem).symm ▸ hothers sibling hmem

theorem Lists.sheds_iff :
    forest.Sheds tree.id other ↔ frame.id ≠ Arena.root ∧ frame.data.kind = .paragraph ∧
      forest.AtEdge ((before ++ after).map NumberedTree.id) other := by
  rw [← hlists.erase_children]
  constructor
  · rintro ⟨above, entry, hparent, hroot, hentry, hkind, hedge⟩
    obtain rfl := hlists.eq_of_parent hparent
    obtain rfl := Option.some.inj (hlists.eq_above.symm.trans hentry)
    exact ⟨hroot, hkind, hedge⟩
  · rintro ⟨hroot, hkind, hedge⟩
    exact ⟨_, _, hlists.parent, hroot, hlists.eq_above, hkind, hedge⟩

end Beside

end OrderedForest

namespace Arena

variable {arena next : Arena} {frame last : Frame} {place : Place}
  {before after roots : NumberedForest} {tree : NumberedTree} {id : Nat}

/-- A node is taken out from under one that stays. -/
theorem Stores.settle_beside
    (hstores : Stores arena (Place.plug (frame :: place) (before ++ tree :: after))) :
    ∃ removed, (∀ other, other ∈ removed ↔
        arena.forest.Below tree.id other ∨ arena.forest.Sheds tree.id other) ∧
      ((arena.forest.prune removed).settle frame.id).Lists ((Place.plug (frame :: place)
        (if frame.id = root then before ++ after else (before ++ after).settle frame.data)).entries
          none) := by
  have hlists := hstores.lists
  have hcut : (arena.forest.prune (NumberedForest.ids [tree])).Lists
      ((Place.plug (frame :: place) (before ++ after)).entries none) :=
    hlists.prune_block
  by_cases hparagraph : frame.id ≠ root ∧ frame.data.kind = .paragraph
  · obtain ⟨front, back, kept, hedges, htrimmed, hkept⟩ := hcut.cutEdges
    have hedges : arena.forest.CutAtEdges ((before ++ after).map NumberedTree.id) front
        (kept.map NumberedTree.id) back := by
      refine hedges.congr (List.forall_mem_map.mpr fun sibling hmem => ?_)
      rw [hlists.isBlankLeaf_beside sibling hmem, hcut.isBlankLeaf_of_mem sibling hmem]
    rw [OrderedForest.prune_prune] at hkept
    refine ⟨NumberedForest.ids [tree] ++ (front ++ back), fun other => ?_, ?_⟩
    · rw [List.mem_append, hstores.below_iff, hlists.sheds_iff, hedges.atEdge_iff]
      simp only [hparagraph.1, hparagraph.2, ne_eq, not_false_eq_true, true_and]
    · rw [hkept.settle_eq, if_pos hparagraph, if_neg hparagraph.1, NumberedForest.settle,
        if_pos hparagraph.2, htrimmed]
      exact hkept.trimOuter
  · have hsame : (if frame.id = root then before ++ after
        else (before ++ after).settle frame.data) = before ++ after := by
      rw [NumberedForest.settle]
      split_ifs with hroot hkind
      · rfl
      · exact absurd ⟨hroot, hkind⟩ hparagraph
      · rfl
    refine ⟨NumberedForest.ids [tree], fun other => ?_, ?_⟩
    · rw [hstores.below_iff, hlists.sheds_iff, ← and_assoc]
      simp only [hparagraph, false_and, or_false]
    · rwa [hcut.settle_eq, if_neg hparagraph, hsame]

/-- What is below a node that is emptied. -/
theorem Stores.below_emptied
    (hstores : Stores arena (Place.plug (frame :: place) (before ++ tree :: after)))
    (hempties : arena.forest.Empties tree.id frame.id) (other : Nat) :
    arena.forest.Below frame.id other ↔
      other = frame.id ∨ arena.forest.Below tree.id other ∨ arena.forest.Sheds tree.id other := by
  have hlists := hstores.lists
  obtain ⟨-, hroot, -, hempty⟩ := hlists.empties_iff.mp hempties
  rw [settle_eq_nil_iff] at hempty
  have hblank : ∀ sibling ∈ before ++ after, sibling.isBlankLeaf := fun sibling hmem =>
    (hempty sibling hmem).2
  have hsheds : arena.forest.Sheds tree.id other ↔ other ∈ (before ++ after).ids := by
    rw [hlists.sheds_iff, ids_of_isBlankLeaf hblank, OrderedForest.atEdge_of_blank]
    · refine ⟨fun hall => hall.2.2, fun hmem => ⟨hroot, ?_, hmem⟩⟩
      -- Siblings that go are there only in a paragraph.
      obtain ⟨sibling, hsibling, -⟩ := List.mem_map.mp hmem
      exact (hempty sibling hsibling).1
    · exact List.forall_mem_map.mpr fun sibling hmem =>
        (hlists.isBlankLeaf_beside sibling hmem).trans (hblank sibling hmem)
  have hframe : Stores arena (place.plug
      (frame.before ++ .node frame.id frame.data (before ++ tree :: after) :: frame.after)) :=
    hstores
  have hbelow : arena.forest.Below frame.id other ↔ _ := hframe.below_iff
  rw [hbelow, hstores.below_iff, hsheds, ids_cons, ids_nil, List.append_nil, List.mem_cons,
    (ids_perm List.perm_middle).mem_iff, ← List.singleton_append, ids_append, List.mem_append]

/-- A node is taken out with the ancestors that this empties. -/
theorem Stores.cascade
    (hstores : Stores arena (Place.plug (place ++ [last]) (before ++ tree :: after)))
    (hlast : last.id = root) :
    ∃ gone stop removed, arena.forest.Cascade tree.id gone stop removed ∧
      List.Forall₂ (fun id data => ∃ entry, arena.forest id = some entry ∧ entry.data = data) gone
        (place.close (before ++ after)).2 ∧
      ((arena.forest.prune removed).settle stop).Lists
        ((Place.plug [last] (place.close (before ++ after)).1).entries none) := by
  induction place generalizing before tree after with
  | nil =>
      rw [List.nil_append] at hstores
      obtain ⟨removed, hremoved, hlists⟩ := hstores.settle_beside
      rw [if_pos hlast] at hlists
      refine ⟨[], last.id, removed, .of_stays hstores.lists.parent ?_ hlists.stays hremoved, .nil,
        hlists⟩
      exact fun hempties => hempties.2.1 hlast
  | cons frame place ih =>
      rw [List.cons_append] at hstores
      have hframe : Stores arena (Place.plug (place ++ [last])
          (frame.before ++ .node frame.id frame.data (before ++ tree :: after) :: frame.after)) :=
        hstores
      have hne : frame.id ≠ root := fun heq =>
        hframe.not_mem_place (by simp) (heq.trans hlast.symm ▸ last_mem_place place last)
      have hiff : arena.forest.Empties tree.id frame.id ↔ _ := hstores.lists.empties_iff
      by_cases hempty : Forest.goesWhenEmpty frame.data = true ∧
          (before ++ after).settle frame.data = []
      · have hempties := hiff.mpr ⟨rfl, hne, hempty⟩
        obtain ⟨gone, stop, removed, hcascade, hgone, hlists⟩ := ih hframe
        rw [Place.close_of_emptied hempty.1 hempty.2]
        refine ⟨frame.id :: gone, stop, removed, ?_, ?_, hlists⟩
        · exact .of_goes hempties (hstores.below_emptied hempties) hcascade
        · exact .cons ⟨_, hframe.forest_tree, rfl⟩ hgone
      · obtain ⟨removed, hremoved, hlists⟩ := hstores.settle_beside
        rw [if_neg hne] at hlists
        rw [Place.close_of_kept hempty]
        refine ⟨[], frame.id, removed, .of_stays hstores.lists.parent ?_ hlists.stays hremoved,
          .nil, ?_⟩
        · exact fun hempties => hempty (hiff.mp hempties).2.2
        · rwa [← Place.plug_append]

/-- In a full forest no node that goes when it is empty is empty. -/
theorem Stores.full_iff (hstores : Stores arena roots) :
    arena.forest.Full ↔ roots.census NumberedTree.vacant = [] := by
  rw [List.eq_nil_iff_forall_not_mem]
  constructor
  · intro hfull found hfound
    obtain ⟨place, before, tree, after, rfl, hvacant⟩ := Place.exists_plug hfound
    rw [NumberedTree.vacant] at hvacant
    split at hvacant
    next hempty =>
      refine hfull tree.id _ hstores.forest_tree hempty.1 ?_
      rw [List.isEmpty_iff.mp hempty.2, List.map_nil]
    next => cases hvacant
  · intro hnone id entry hentry hgoes hnil
    obtain ⟨place, before, tree, after, rfl, rfl, rfl⟩ := hstores.exists_tree hentry
    apply hnone tree.id
    apply Place.census_subset_plug
    have hvacant : tree.vacant = [tree.id] :=
      if_pos ⟨hgoes, List.isEmpty_iff.mpr (List.map_eq_nil_iff.mp hnil)⟩
    rw [census_append, census_cons_eq, hvacant]
    simp

theorem vacant_of_isTextLeaf (hleaf : tree.erase.isTextLeaf = true) : tree.vacant = [] := by
  refine if_neg fun hempty => ?_
  have hgoes := Kind.goesWhenEmpty_eq_false (Forest.isText_of_isTextLeaf hleaf).canHaveChildren
  exact absurd (hempty.1.symm.trans hgoes) nofun

/-- A forest that is full is full without a node and the ancestors that are emptied. -/
theorem Stores.full_close
    (hstores : Stores arena (Place.plug (place ++ [last]) (before ++ tree :: after)))
    (hnext : Stores next (Place.plug [last] (place.close (before ++ after)).1))
    (hlast : ¬ Forest.goesWhenEmpty last.data) (hfull : arena.forest.Full) : next.forest.Full := by
  have hquiet : place.Quiet NumberedTree.vacant := fun frame _ children hfull =>
    if_neg fun hempty => hfull hempty.1 (List.isEmpty_iff.mp hempty.2)
  have hnode : ∀ siblings, NumberedTree.vacant (.node last.id last.data siblings) = [] :=
    fun siblings => if_neg fun hempty => hlast hempty.1
  rw [hstores.full_iff, Place.plug_append, Place.plug_cons, Place.plug_nil, census_append,
    census_cons, hnode, Place.census_plug hquiet (.inl (by simp)), census_append,
    census_cons_eq] at hfull
  rw [hnext.full_iff, Place.plug_cons, Place.plug_nil, census_append, census_cons, hnode,
    Place.census_close (fun _ => vacant_of_isTextLeaf) hquiet, census_append]
  simp only [List.append_eq_nil_iff] at hfull ⊢
  tauto

/-- The warnings about the nodes that go and must have children. -/
theorem forall₂_emptiedNotice {forest : OrderedForest} {gone : List Nat} {emptied : List Node}
    (hgone : List.Forall₂ (fun id data => ∃ entry, forest id = some entry ∧ entry.data = data) gone
      emptied) :
    List.Forall₂ (fun id notice => ∃ entry, forest id = some entry ∧
        notice = ⟨.emptyRemoved entry.data.kind, some entry.data.offset⟩)
      (gone.filter fun id => (forest id).any fun entry => entry.data.kind.needsChildren)
      (emptied.filterMap Node.emptiedNotice?) := by
  induction hgone with
  | nil => exact .nil
  | @cons id data gone emptied hhead _ ih =>
      obtain ⟨entry, hentry, rfl⟩ := hhead
      by_cases hneeds : entry.data.kind.needsChildren
      · have hnotice : entry.data.emptiedNotice? = some entry.data.emptyNotice := if_pos hneeds
        rw [List.filter_cons_of_pos (by simpa [hentry] using hneeds),
          List.filterMap_cons_some hnotice]
        exact .cons ⟨entry, hentry, rfl⟩ ih
      · have hnone : entry.data.emptiedNotice? = none := if_neg hneeds
        rwa [List.filter_cons_of_neg (by simpa [hentry] using hneeds),
          List.filterMap_cons_none hnone]

/-- A node that is not the root of the only tree stands below the root. -/
theorem Stores.exists_below {top : NumberedTree} {entry : Entry} (hstores : Stores arena [top])
    (hentry : arena.forest id = some entry) (hne : id ≠ top.id) :
    ∃ (place : Place) (last : Frame) (before : NumberedForest) (tree : NumberedTree)
      (after : NumberedForest), [top] = Place.plug (place ++ [last]) (before ++ tree :: after) ∧
        tree.id = id ∧ last.id = top.id := by
  obtain ⟨place, before, tree, after, hplug, rfl, -⟩ := hstores.exists_tree hentry
  have htop : ∀ other ∈ [top], other.id = top.id := List.forall_mem_singleton.mpr rfl
  cases place using List.reverseRecOn with
  | nil =>
      rw [hplug] at htop
      exact absurd (htop tree (by simp)) hne
  | append_singleton place last _ =>
      refine ⟨place, last, before, tree, after, hplug, rfl, ?_⟩
      rw [hplug, Place.plug_append, Place.plug_cons, Place.plug_nil] at htop
      exact htop _ (List.mem_append_right _ List.mem_cons_self)

/-- Removing a node takes it out with the ancestors that this empties, and with the blank text
leaves that paragraphs shed on the way. If the nearest ancestor that stays is a paragraph, the texts
at its ends are trimmed, and every other node stays as it is. There is a warning for each node that
goes and must have children, the innermost first, and none for paragraphs. If no paragraph and no
node that must have children was empty, none is afterwards. (The root of a document stays and may
be empty.) -/
theorem removeAndPrune_cascades (harena : arena.WellFormed) (hlive : arena.forest.Live id)
    (hne : id ≠ root) :
    ∃ next notices gone stop removed,
      arena.removeAndPrune id = .ok (next, notices) ∧ next.WellFormed ∧
      arena.forest.Cascade id gone stop removed ∧
      next.forest = (arena.forest.prune removed).settle stop ∧
      (∀ other, other ∉ removed → other ≠ stop → ¬ arena.forest.Parent stop other →
        next.forest other = arena.forest other) ∧
      List.Forall₂ (fun above notice => ∃ entry, arena.forest above = some entry ∧
          notice = ⟨.emptyRemoved entry.data.kind, some entry.data.offset⟩)
        (gone.filter fun above =>
          (arena.forest above).any fun entry => entry.data.kind.needsChildren) notices ∧
      ((∀ entry, arena.forest root = some entry → ¬ Forest.goesWhenEmpty entry.data) →
        arena.forest.Full → next.forest.Full) := by
  obtain ⟨top, hroot, htop⟩ := wellFormed_iff.mp harena
  obtain ⟨entry, hentry⟩ := hlive
  obtain ⟨place, last, before, tree, after, hplug, rfl, hlast⟩ :=
    htop.exists_below hentry (hroot.symm ▸ hne)
  rw [hroot] at hlast
  have hstores := htop
  rw [hplug] at hstores
  obtain ⟨next, hremove, hnext⟩ := hstores.removeAndPrune hlast
  obtain ⟨gone, stop, removed, hcascade, hgone, hlists⟩ := hstores.cascade hlast
  have hforest := hnext.lists.unique hlists
  refine ⟨next, _, gone, stop, removed, hremove, ?_, hcascade, hforest, ?_,
    forall₂_emptiedNotice hgone, fun htopKind => ?_⟩
  · rw [Place.plug_append] at hstores hplug
    refine harena.of_plug hstores ?_ hnext
    rw [← hplug, List.map_singleton, hroot]
    exact List.mem_singleton_self root
  · intro other hkept hstop hparent
    have hchildren := hstores.parent_of_mem
    rw [hforest, OrderedForest.settle_apply_of_not_mem]
    · apply OrderedForest.prune_apply_of_kept hkept
      exact fun entry hentry => hcascade.children_kept hchildren hkept hstop hentry
    · intro entry hentry hmem
      obtain ⟨whole, hwhole, hsubset⟩ := OrderedForest.children_of_prune hentry
      exact hparent (hchildren stop whole hwhole other (hsubset hmem))
  · refine hstores.full_close hnext ?_
    rw [Place.plug_append] at hstores
    exact htopKind _ (hlast ▸ hstores.lists.eq_above)

/-- Taking the only text out of two styles takes them out as well, the inner one first, and leaves
one text without the white space around it. -/
theorem removeAndPrune_cascades_trimExample : trimExample.WellFormed ∧
    trimExample.forest.Live 5 ∧ 5 ≠ root ∧ trimExample.forest.Full ∧
    ∃ next, trimExample.removeAndPrune 5 = .ok (next,
        [ ⟨.emptyRemoved (.aggregate (.style .bold)), some 2⟩
        , ⟨.emptyRemoved (.aggregate (.style .em)), some 1⟩ ]) ∧
      next.WellFormed ∧ next.forest.Full ∧
      next.forest 6 = some ⟨{ kind := .text, text := "b" }, some 1, []⟩ := by
  have hwellFormed := trimExample_stores.wellFormed rfl
  have hlive : trimExample.forest.Live 5 := ⟨_, rfl⟩
  have hfull : trimExample.forest.Full := by
    rw [trimExample_stores.full_iff]
    simp only [trimTree, census_cons, census_nil]
    decide
  have hne : 5 ≠ root := by decide
  obtain ⟨next, notices, -, -, -, hremove, hnext, -, -, -, -, hkeeps⟩ :=
    removeAndPrune_cascades hwellFormed hlive hne
  have hrun : (trimExample.removeAndPrune 5).map (fun found => (found.1.forest 6, found.2)) =
      .ok (some ⟨{ kind := .text, text := "b" }, some 1, []⟩,
        [ ⟨.emptyRemoved (.aggregate (.style .bold)), some 2⟩
        , ⟨.emptyRemoved (.aggregate (.style .em)), some 1⟩ ]) := by
    decide
  rw [hremove] at hrun
  obtain ⟨htext, hnotices⟩ := Prod.mk.inj (Except.ok.inj hrun)
  refine ⟨hwellFormed, hlive, hne, hfull, next, hnotices ▸ hremove, hnext, hkeeps ?_ hfull, htext⟩
  intro entry hentry
  obtain rfl := Option.some.inj hentry
  decide

end Arena

end PageMarkup
