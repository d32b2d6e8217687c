import Mathlib.Order.Interval.Finset.Nat
import Mathlib.Order.WellFoundedSet
import PageMarkup.Proofs.Arena.WellFormed

/-! # Coherent arenas store forests

The links of a coherent arena are those of a binary tree: a node leads to its first child and
to the node after it, at most one node leads to it, and no way comes back. So a forest is read
off from each node without a parent, the forests have no node in common, and every node is in
one of them.
-/

namespace PageMarkup

open NumberedForest Relation

namespace Arena

theorem exists_mem_of_mem_ids {id : Nat} {forest : NumberedForest} (hmem : id ∈ forest.ids) :
    ∃ tree ∈ forest, id ∈ NumberedForest.ids [tree] := by
  rw [← flatten_ids, List.mem_flatten] at hmem
  obtain ⟨ids, hids, hmem⟩ := hmem
  obtain ⟨tree, htree, rfl⟩ := List.mem_map.mp hids
  exact ⟨tree, htree, hmem⟩

theorem Leads.exists_cell {arena : Arena} {id other : Nat} (hleads : arena.Leads id other) :
    ∃ cell, arena.get? id = some cell :=
  hleads.imp fun _ => And.left

/-- A relation between finitely many numbers without a way back is well-founded. -/
theorem wellFounded_of_acyclic {r : Nat → Nat → Prop} {bound : Nat}
    (hbound : ∀ {id other}, r id other → id < bound ∧ other < bound)
    (hacyclic : ∀ id, ¬ TransGen r id id) : WellFounded r := by
  have hstrict : IsStrictOrder Nat (TransGen r) :=
    { irrefl := hacyclic, trans := fun _ _ _ => TransGen.trans }
  have hon : (Set.Iio bound).WellFoundedOn (TransGen r) := (Set.finite_Iio bound).wellFoundedOn
  exact Subrelation.wf (fun hr => ⟨.single hr, (hbound hr).1, (hbound hr).2⟩)
    (Set.wellFoundedOn_iff.mp hon)

namespace Coherent

variable {arena : Arena} (harena : arena.Coherent) {id other : Nat} {cell : Cell}

include harena

theorem lt_size_of_leads (hleads : arena.Leads id other) :
    id < arena.slots.size ∧ other < arena.slots.size := by
  obtain ⟨cell, hcell, hfirst | hnext⟩ := hleads
  · obtain ⟨child, hchild, -⟩ := harena.first hcell hfirst
    exact ⟨lt_size_of_get? hcell, lt_size_of_get? hchild⟩
  · obtain ⟨following, hfollowing, -⟩ := harena.next hcell hnext
    exact ⟨lt_size_of_get? hcell, lt_size_of_get? hfollowing⟩

/-- Induction from the nodes that lead to a node. -/
theorem wellFounded_leads : WellFounded arena.Leads :=
  wellFounded_of_acyclic harena.lt_size_of_leads harena.acyclic

/-- Induction from the nodes that a node leads to. -/
theorem wellFounded_led : WellFounded (Function.swap arena.Leads) :=
  wellFounded_of_acyclic (fun hleads => (harena.lt_size_of_leads hleads).symm)
    fun id hway => harena.acyclic id (transGen_swap.mp hway)

/-- What leads to a node is the node before it, or its parent if it is a first child. -/
theorem cell_of_leads (hleads : arena.Leads other id) : ∃ cell, arena.get? id = some cell ∧
    (cell.previous = some other ∨ cell.previous = none ∧ cell.parent = some other) := by
  obtain ⟨above, habove, hfirst | hnext⟩ := hleads
  · obtain ⟨child, hchild, hparent, hprevious⟩ := harena.first habove hfirst
    exact ⟨child, hchild, .inr ⟨hprevious, hparent⟩⟩
  · obtain ⟨following, hfollowing, hprevious, -⟩ := harena.next habove hnext
    exact ⟨following, hfollowing, .inl hprevious⟩

theorem leads_unique {first second : Nat} (hfirst : arena.Leads first id)
    (hsecond : arena.Leads second id) : first = second := by
  obtain ⟨cell, hcell, hlink⟩ := harena.cell_of_leads hfirst
  obtain ⟨same, hsame, hlink'⟩ := harena.cell_of_leads hsecond
  obtain rfl : cell = same := Option.some.inj (hcell.symm.trans hsame)
  grind

/-- A node with a parent is led to. -/
theorem exists_leads (hcell : arena.get? id = some cell) {parent : Nat}
    (hparent : cell.parent = some parent) : ∃ above, arena.Leads above id := by
  cases hprevious : cell.previous with
  | some previous =>
      obtain ⟨preceding, hpreceding, hnext, -⟩ := harena.previous hcell hprevious
      exact ⟨previous, preceding, hpreceding, .inr hnext⟩
  | none =>
      obtain ⟨above, habove, hfirst, -⟩ := harena.parent hcell hparent
      exact ⟨parent, above, habove, .inl (hfirst hprevious)⟩

theorem not_leads_of_parent (hcell : arena.get? id = some cell) (hparent : cell.parent = none) :
    ¬ arena.Leads other id := by
  intro hleads
  obtain ⟨same, hsame, hlink⟩ := harena.cell_of_leads hleads
  obtain rfl : cell = same := Option.some.inj (hcell.symm.trans hsame)
  have halone := harena.alone hcell hparent
  grind

/-! ## Reading a forest off -/

/-- A node that has a child has a first child. -/
theorem first_ne_none (hcell : arena.get? id = some cell) {child : Cell}
    (hchild : arena.get? other = some child) (hparent : child.parent = some id) :
    cell.first ≠ none := by
  -- Back along the siblings: only the first of them is known to its parent.
  induction other using harena.wellFounded_leads.induction generalizing child with
  | h other ih =>
      cases hprevious : child.previous with
      | none =>
          obtain ⟨above, habove, hfirst, -⟩ := harena.parent hchild hparent
          obtain rfl : cell = above := Option.some.inj (hcell.symm.trans habove)
          simp [hfirst hprevious]
      | some previous =>
          obtain ⟨preceding, hpreceding, hnext, hsame⟩ := harena.previous hchild hprevious
          exact ih previous ⟨preceding, hpreceding, .inr hnext⟩ hpreceding (hsame.trans hparent)

/-- The last of the children that are found from the first on is the last child. -/
theorem lastId_eq (hcell : arena.get? id = some cell) {children : NumberedForest}
    (hlinked : Linked arena (some id) none none children) (hfirst : firstId children = cell.first) :
    lastId children = cell.last := by
  cases children using List.reverseRecOn with
  | nil =>
      cases hlast : cell.last with
      | none => rfl
      | some last =>
          obtain ⟨child, hchild, hparent, -⟩ := harena.last hcell hlast
          exact absurd hfirst.symm (harena.first_ne_none hcell hchild hparent)
  | append_singleton init tree _ =>
      have htree := (linked_tree.mp (linked_append.mp hlinked).2).1
      obtain ⟨above, habove, -, hlast⟩ := harena.parent htree rfl
      obtain rfl : cell = above := Option.some.inj (hcell.symm.trans habove)
      rw [lastId_concat, hlast rfl]

/-- A forest begins with a node and the nodes after it. -/
theorem exists_linked (hcell : arena.get? id = some cell) : ∃ (tree : NumberedTree)
    (rest : NumberedForest), tree.id = id ∧
      Linked arena cell.parent cell.previous none (tree :: rest) := by
  -- A node leads to its first child and to the node after it, and these two begin the forests
  -- of which its own is made.
  induction id using harena.wellFounded_led.induction generalizing cell with
  | h id ih =>
      obtain ⟨children, hfirst, hchildren⟩ : ∃ children, firstId children = cell.first ∧
          Linked arena (some id) none none children := by
        cases hfirst : cell.first with
        | none => exact ⟨[], rfl, linked_nil⟩
        | some first =>
            obtain ⟨child, hchild, hparent, hprevious⟩ := harena.first hcell hfirst
            obtain ⟨tree, rest, rfl, hlinked⟩ := ih first ⟨cell, hcell, .inl hfirst⟩ hchild
            rw [hparent, hprevious] at hlinked
            exact ⟨tree :: rest, rfl, hlinked⟩
      obtain ⟨rest, hnext, hrest⟩ : ∃ rest, firstId rest = cell.next ∧
          Linked arena cell.parent (some id) none rest := by
        cases hnext : cell.next with
        | none => exact ⟨[], rfl, linked_nil⟩
        | some next =>
            obtain ⟨following, hfollowing, hprevious, hparent⟩ := harena.next hcell hnext
            obtain ⟨tree, rest, rfl, hlinked⟩ := ih next ⟨cell, hcell, .inr hnext⟩ hfollowing
            rw [hparent, hprevious] at hlinked
            exact ⟨tree :: rest, rfl, hlinked⟩
      refine ⟨.node id cell.data children, rest, rfl, linked_cons.mpr ⟨?_, hchildren, hrest⟩⟩
      rw [hcell, hfirst, harena.lastId_eq hcell hchildren hfirst, hnext, Option.or_none]
      cases hparent : cell.parent with
      | some parent => rw [beside_some, beside_some, ← hparent]
      | none =>
          have halone := harena.alone hcell hparent
          cases cell
          simp_all

/-- Nodes without a parent are the roots of some trees. -/
theorem exists_roots (ids : List Nat)
    (hids : ∀ id ∈ ids, ∃ cell, arena.get? id = some cell ∧ cell.parent = none) :
    ∃ roots, roots.map NumberedTree.id = ids ∧ Linked arena none none none roots := by
  induction ids with
  | nil => exact ⟨[], rfl, linked_nil⟩
  | cons id ids ih =>
      obtain ⟨⟨cell, hcell, hparent⟩, hrest⟩ := List.forall_mem_cons.mp hids
      obtain ⟨tree, rest, rfl, hlinked⟩ := harena.exists_linked hcell
      rw [hparent, linked_root, linked_roots, List.forall_mem_cons] at hlinked
      obtain ⟨roots, rfl, hroots⟩ := ih hrest
      exact ⟨tree :: roots, rfl,
        linked_roots.mpr (List.forall_mem_cons.mpr ⟨hlinked.1, linked_roots.mp hroots⟩)⟩

/-! ## Each node once -/

/-- Of two nodes from which a third is reached, one is reached from the other. -/
theorem reaches_total {first second : Nat} (hfirst : ReflTransGen arena.Leads first id)
    (hsecond : ReflTransGen arena.Leads second id) :
    ReflTransGen arena.Leads first second ∨ ReflTransGen arena.Leads second first := by
  have hunique : Relator.RightUnique (Function.swap arena.Leads) :=
    fun _ _ _ hone hanother => harena.leads_unique hone hanother
  rcases ReflTransGen.total_of_right_unique hunique (reflTransGen_swap.mpr hfirst)
    (reflTransGen_swap.mpr hsecond) with hway | hway
  · exact .inr (reflTransGen_swap.mp hway)
  · exact .inl (reflTransGen_swap.mp hway)

/-- Nothing is reached from both of the nodes that a node leads to. -/
theorem not_reaches_both {first second : Nat} (hfirst : arena.Leads id first)
    (hsecond : arena.Leads id second) (hne : first ≠ second)
    (hreach : ReflTransGen arena.Leads first other) :
    ¬ ReflTransGen arena.Leads second other := by
  -- A way from one of the two to the other would come through their common node.
  have hapart : ∀ {one another : Nat}, arena.Leads id one → arena.Leads id another →
      one ≠ another → ¬ ReflTransGen arena.Leads one another := by
    intro one another hone hanother hne hway
    obtain rfl | ⟨before, hway, hleads⟩ := hway.cases_tail
    · exact hne rfl
    · rw [harena.leads_unique hleads hanother] at hway
      exact harena.acyclic id (.head' hone hway)
  intro hreach'
  rcases harena.reaches_total hreach hreach' with hway | hway
  · exact hapart hfirst hsecond hne hway
  · exact hapart hsecond hfirst hne.symm hway

omit harena in
/-- All the nodes among the children of a node are reached from the first of them. -/
theorem reaches_of_mem {parent : Nat} {previous : Option Nat} {forest : NumberedForest}
    (hlinked : Linked arena (some parent) previous none forest) (hmem : id ∈ forest.ids) :
    ∃ first, firstId forest = some first ∧ ReflTransGen arena.Leads first id := by
  induction forest using NumberedForest.induction generalizing parent previous with
  | nil => simp at hmem
  | cons other data children rest ihchildren ihrest =>
      obtain ⟨hcell, hchildren, hrest⟩ := linked_cons.mp hlinked
      refine ⟨other, rfl, ?_⟩
      rw [ids_cons, List.mem_cons, List.mem_append] at hmem
      rcases hmem with rfl | hmem | hmem
      · exact .refl
      · obtain ⟨first, hfirst, hway⟩ := ihchildren hchildren hmem
        exact hway.head ⟨_, hcell, .inl hfirst⟩
      · obtain ⟨next, hnext, hway⟩ := ihrest hrest hmem
        exact hway.head ⟨_, hcell, .inr (by simp [hnext])⟩

theorem not_mem_ids_children (hcell : arena.get? id = some cell) {children : NumberedForest}
    (hfirst : cell.first = firstId children)
    (hchildren : Linked arena (some id) none none children) : id ∉ children.ids := by
  intro hmem
  obtain ⟨first, hid, hway⟩ := reaches_of_mem hchildren hmem
  exact harena.acyclic id (.head' ⟨cell, hcell, .inl (hfirst.trans hid)⟩ hway)

/-- The children of a node and what is below them have distinct numbers. -/
theorem nodup_ids {parent : Nat} {previous : Option Nat} {forest : NumberedForest}
    (hlinked : Linked arena (some parent) previous none forest) : forest.ids.Nodup := by
  induction forest using NumberedForest.induction generalizing parent previous with
  | nil => simp
  | cons other data children rest ihchildren ihrest =>
      obtain ⟨hcell, hchildren, hrest⟩ := linked_cons.mp hlinked
      rw [beside_some, beside_some, Option.or_none] at hcell
      rw [ids_cons, List.nodup_cons, List.mem_append, List.nodup_append]
      refine ⟨?_, ihchildren hchildren, ihrest hrest, ?_⟩
      · rintro (hmem | hmem)
        · exact harena.not_mem_ids_children hcell rfl hchildren hmem
        · obtain ⟨next, hnext, hway⟩ := reaches_of_mem hrest hmem
          exact harena.acyclic other (.head' ⟨_, hcell, .inr hnext⟩ hway)
      · rintro id hmem _ hmem' rfl
        obtain ⟨first, hfirst, hway⟩ := reaches_of_mem hchildren hmem
        obtain ⟨next, hnext, hway'⟩ := reaches_of_mem hrest hmem'
        -- A first child has no node before it.
        have hne : first ≠ next := by
          rintro rfl
          obtain ⟨child, hchild, -, hnone⟩ := harena.first hcell hfirst
          obtain ⟨following, hfollowing, hsome, -⟩ := harena.next hcell hnext
          obtain rfl : child = following := Option.some.inj (hchild.symm.trans hfollowing)
          exact absurd (hnone.symm.trans hsome) nofun
        exact harena.not_reaches_both ⟨_, hcell, .inl hfirst⟩ ⟨_, hcell, .inr hnext⟩ hne hway hway'

omit harena in
/-- All the nodes of a tree are reached from its root. -/
theorem reaches_of_mem_tree {tree : NumberedTree}
    (hlinked : Linked arena none none none [tree]) (hmem : id ∈ NumberedForest.ids [tree]) :
    ReflTransGen arena.Leads tree.id id := by
  obtain ⟨hcell, hchildren, -⟩ := linked_tree.mp hlinked
  rw [ids_cons_eq, ids_nil, List.append_nil, List.mem_cons] at hmem
  rcases hmem with rfl | hmem
  · exact .refl
  · obtain ⟨first, hfirst, hway⟩ := reaches_of_mem hchildren hmem
    exact hway.head ⟨_, hcell, .inl hfirst⟩

/-- A root is not reached from any other node. -/
theorem eq_of_reaches (hcell : arena.get? id = some cell) (hparent : cell.parent = none)
    (hway : ReflTransGen arena.Leads other id) : other = id := by
  obtain rfl | ⟨before, -, hleads⟩ := hway.cases_tail
  · rfl
  · exact absurd hleads (harena.not_leads_of_parent hcell hparent)

/-- Trees with distinct roots have no node in common. -/
theorem nodup_ids_roots {roots : NumberedForest} (hlinked : Linked arena none none none roots)
    (hdistinct : (roots.map NumberedTree.id).Nodup) : roots.ids.Nodup := by
  induction roots with
  | nil => simp
  | cons tree rest ih =>
      have hforest := linked_roots.mp hlinked
      obtain ⟨htree, htrees⟩ := List.forall_mem_cons.mp hforest
      obtain ⟨hcell, hchildren, -⟩ := linked_tree.mp htree
      obtain ⟨hid, hdistinct⟩ := List.nodup_cons.mp hdistinct
      rw [← List.singleton_append, ids_append, List.nodup_append]
      refine ⟨?_, ih (linked_roots.mpr htrees) hdistinct, ?_⟩
      · rw [ids_cons_eq, ids_nil, List.append_nil, List.nodup_cons]
        exact ⟨harena.not_mem_ids_children hcell rfl hchildren, harena.nodup_ids hchildren⟩
      · rintro id hmem _ hmem' rfl
        obtain ⟨other, hother, hmem'⟩ := exists_mem_of_mem_ids hmem'
        have hroot := (linked_tree.mp (htrees other hother)).1
        have heq : tree.id = other.id := by
          rcases harena.reaches_total (reaches_of_mem_tree htree hmem)
            (reaches_of_mem_tree (htrees other hother) hmem') with hway | hway
          · exact harena.eq_of_reaches hroot rfl hway
          · exact (harena.eq_of_reaches hcell rfl hway).symm
        exact hid (List.mem_map.mpr ⟨other, hother, heq.symm⟩)

/-! ## Every node -/

/-- Every node is reached from a root. -/
theorem exists_root (hcell : arena.get? id = some cell) :
    ∃ top above, arena.get? top = some above ∧ above.parent = none ∧
      ReflTransGen arena.Leads top id := by
  induction id using harena.wellFounded_leads.induction generalizing cell with
  | h id ih =>
      cases hparent : cell.parent with
      | none => exact ⟨id, cell, hcell, hparent, .refl⟩
      | some parent =>
          obtain ⟨before, hleads⟩ := harena.exists_leads hcell hparent
          obtain ⟨other, hother⟩ := hleads.exists_cell
          obtain ⟨top, above, habove, hnone, hway⟩ := ih before hleads hother
          exact ⟨top, above, habove, hnone, hway.tail hleads⟩

omit harena in
/-- What a node of a forest leads to is in the forest. -/
theorem mem_ids_of_leads {parent previous : Option Nat} {forest : NumberedForest}
    (hlinked : Linked arena parent previous none forest) (hmem : id ∈ forest.ids)
    (hleads : arena.Leads id other) : other ∈ forest.ids := by
  induction forest using NumberedForest.induction generalizing parent previous with
  | nil => simp at hmem
  | cons top data children rest ihchildren ihrest =>
      obtain ⟨hcell, hchildren, hrest⟩ := linked_cons.mp hlinked
      rw [ids_cons, List.mem_cons, List.mem_append] at hmem ⊢
      rcases hmem with rfl | hmem | hmem
      · obtain ⟨cell, hsame, hlink⟩ := hleads
        obtain rfl := Option.some.inj (hcell.symm.trans hsame)
        rcases hlink with hfirst | hnext
        · exact .inr (.inl (mem_ids_of_firstId hfirst))
        · cases parent with
          | none => cases hnext
          | some parent =>
              rw [beside_some, Option.or_none] at hnext
              exact .inr (.inr (mem_ids_of_firstId hnext))
      · exact .inr (.inl (ihchildren hchildren hmem))
      · exact .inr (.inr (ihrest hrest hmem))

/-- A coherent arena stores a forest that has the root of the document among its roots. -/
theorem exists_stores : ∃ roots, Stores arena roots ∧ root ∈ roots.map NumberedTree.id := by
  -- The nodes without a parent are the roots; every other node is reached from one of them.
  let ids := (List.range arena.slots.size).filter fun id =>
    (arena.get? id).any fun cell => cell.parent.isNone
  have hmem : ∀ id, id ∈ ids ↔ ∃ cell, arena.get? id = some cell ∧ cell.parent = none := by
    intro id
    simp only [ids, List.mem_filter, List.mem_range, Option.any_eq_true, Option.isNone_iff_eq_none]
    exact and_iff_right_of_imp fun ⟨cell, hcell, _⟩ => lt_size_of_get? hcell
  obtain ⟨roots, hids, hlinked⟩ := harena.exists_roots ids fun id => (hmem id).mp
  have hdistinct : (roots.map NumberedTree.id).Nodup := hids ▸ List.nodup_range.filter _
  refine ⟨roots, ⟨harena.nodup_ids_roots hlinked hdistinct, hlinked, ?_, ?_⟩, ?_⟩
  · intro id cell hcell
    obtain ⟨top, above, habove, hnone, hway⟩ := harena.exists_root hcell
    have htop : top ∈ roots.map NumberedTree.id := hids ▸ (hmem top).mpr ⟨above, habove, hnone⟩
    obtain ⟨tree, htree, rfl⟩ := List.mem_map.mp htop
    clear hcell
    induction hway with
    | refl => exact id_mem_ids htree
    | tail _ hleads ih => exact mem_ids_of_leads hlinked ih hleads
  · exact ⟨harena.free.1, harena.free.2⟩
  · exact hids ▸ (hmem root).mpr harena.top

end Coherent

/-- The coherent arenas are those that store a forest with the root of a document. -/
theorem coherent_iff {arena : Arena} : arena.Coherent ↔
    ∃ roots, Stores arena roots ∧ root ∈ roots.map NumberedTree.id :=
  ⟨Coherent.exists_stores, fun ⟨_, hstores, hroot⟩ => hstores.coherent hroot⟩

/-- A well-formed arena has no roots beside that of the document. -/
theorem WellFormed.eq_singleton {arena : Arena} {roots : NumberedForest} (harena : arena.WellFormed)
    (hstores : Stores arena roots) (hroot : root ∈ roots.map NumberedTree.id) :
    ∃ tree : NumberedTree, tree.id = root ∧ roots = [tree] := by
  obtain ⟨tree, htree, hid⟩ := List.mem_map.mp hroot
  obtain ⟨before, after, rfl⟩ := List.append_of_mem htree
  have hstores := hstores.perm List.perm_middle
  -- A second tree would have a root of its own, and only one node has no parent.
  have hnil : before ++ after = [] := by
    cases hrest : before ++ after with
    | nil => rfl
    | cons other rest =>
        rw [hrest] at hstores
        have hlinked : Linked arena none none none (Place.plug [] ([tree] ++ other :: rest)) :=
          hstores.linked
        have hother := Stores.get?_sibling hlinked
        obtain ⟨heq, -⟩ := harena.top.2 hother rfl
        have hdistinct := hstores.distinct
        rw [ids_cons_eq, ids_cons_eq, hid, ← heq] at hdistinct
        simp at hdistinct
  obtain ⟨rfl, rfl⟩ := List.append_eq_nil_iff.mp hnil
  exact ⟨tree, hid, rfl⟩

/-- The well-formed arenas are those that store a single tree, whose root is that of a document. -/
theorem wellFormed_iff {arena : Arena} :
    arena.WellFormed ↔ ∃ tree : NumberedTree, tree.id = root ∧ Stores arena [tree] := by
  refine ⟨fun harena => ?_, fun ⟨_, hroot, hstores⟩ => hstores.wellFormed hroot⟩
  obtain ⟨roots, hstores, hroot⟩ := harena.coherent.exists_stores
  obtain ⟨tree, hid, rfl⟩ := harena.eq_singleton hstores hroot
  exact ⟨tree, hid, hstores⟩

end Arena

end PageMarkup
