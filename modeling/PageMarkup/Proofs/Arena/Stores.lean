import PageMarkup.Arena.Basic
import PageMarkup.Proofs.Arena.Numbered

/-! # What an arena stores

An arena stores a numbered forest if its cells are those that the forest calls for: every
node has its data and its links, nothing else is in use, and the free list holds each
slot that is not in use once. Changes are local. A change to the links of one list of
siblings concerns the node above it and the neighbours of what is put in or taken out.
-/

namespace PageMarkup

open NumberedForest

namespace Arena

/-- A link to a neighbour; roots have no neighbours. -/
def beside (parent neighbour : Option Nat) : Option Nat := parent.bind fun _ => neighbour

@[simp]
theorem beside_none (neighbour : Option Nat) : beside none neighbour = none := rfl

@[simp]
theorem beside_some (parent : Nat) (neighbour : Option Nat) :
    beside (some parent) neighbour = neighbour := rfl

/-- The cells of the arena are those of a list of siblings that stands between two
neighbours. -/
def Linked (arena : Arena) (parent previous next : Option Nat) : NumberedForest → Prop
  | [] => True
  | .node id data children :: rest =>
    arena.get? id = some
        { data
          parent
          previous := beside parent previous
          next := beside parent ((firstId rest).or next)
          first := firstId children
          last := lastId children } ∧
      Linked arena (some id) none none children ∧ Linked arena parent (some id) next rest

/-- The free list holds each slot that is not in use once. -/
structure Tidy (arena : Arena) : Prop where
  nodup : arena.free.Nodup
  mem_free : ∀ id, id ∈ arena.free ↔ id < arena.slots.size ∧ arena.get? id = none

/-- The arena holds the trees of a numbered forest and nothing else. -/
structure Stores (arena : Arena) (roots : NumberedForest) : Prop where
  distinct : roots.ids.Nodup
  linked : Linked arena none none none roots
  live : ∀ id cell, arena.get? id = some cell → id ∈ roots.ids
  tidy : arena.Tidy

/-- The same slots are in use in another arena. -/
structure Keeps (arena next : Arena) : Prop where
  size : next.slots.size = arena.slots.size
  free : next.free = arena.free
  live : ∀ id, (next.get? id).isSome = (arena.get? id).isSome

theorem Keeps.refl (arena : Arena) : Keeps arena arena := ⟨rfl, rfl, fun _ => rfl⟩

theorem Keeps.trans {first second third : Arena} (hfirst : Keeps first second)
    (hsecond : Keeps second third) : Keeps first third :=
  ⟨hsecond.size.trans hfirst.size, hsecond.free.trans hfirst.free,
    fun id => (hsecond.live id).trans (hfirst.live id)⟩

/-- The root of a document as a node around the trees of the document. -/
def top : Frame := ⟨root, { kind := .documentRoot }, [], []⟩

/-- The arena holds the trees of a document. -/
abbrev Holds (arena : Arena) (forest : NumberedForest) : Prop :=
  Stores arena (Place.plug [top] forest)

variable {arena next : Arena} {parent previous following : Option Nat}

@[simp]
theorem linked_nil : Linked arena parent previous following [] := by
  rw [Linked]
  trivial

@[simp]
theorem linked_cons {id : Nat} {data : Node} {children rest : NumberedForest} :
    Linked arena parent previous following (.node id data children :: rest) ↔
      arena.get? id = some
          { data
            parent
            previous := beside parent previous
            next := beside parent ((firstId rest).or following)
            first := firstId children
            last := lastId children } ∧
        Linked arena (some id) none none children ∧
        Linked arena parent (some id) following rest := by
  rw [Linked]

theorem linked_tree {tree : NumberedTree} {rest : NumberedForest} :
    Linked arena parent previous following (tree :: rest) ↔
      arena.get? tree.id = some
          { data := tree.data
            parent
            previous := beside parent previous
            next := beside parent ((firstId rest).or following)
            first := firstId tree.children
            last := lastId tree.children } ∧
        Linked arena (some tree.id) none none tree.children ∧
        Linked arena parent (some tree.id) following rest := by
  obtain ⟨id, data, children⟩ := tree
  exact linked_cons

theorem linked_append {first second : NumberedForest} :
    Linked arena parent previous following (first ++ second) ↔
      Linked arena parent previous ((firstId second).or following) first ∧
        Linked arena parent ((lastId first).or previous) following second := by
  induction first using NumberedForest.induction generalizing previous with
  | nil => simp
  | cons id data children rest _ ih =>
      rw [List.cons_append, linked_cons, linked_cons, ih, firstId_append, lastId_cons,
        Option.or_assoc, Option.or_assoc, and_assoc, and_assoc]
      rfl

/-- Roots stand beside nothing. -/
theorem linked_root (previous following : Option Nat) {forest : NumberedForest} :
    Linked arena none previous following forest ↔ Linked arena none none none forest := by
  induction forest generalizing previous following with
  | nil => simp
  | cons tree rest ih =>
      obtain ⟨id, data, children⟩ := tree
      have hrest := ih (some id) following
      rw [← ih (some id) none] at hrest
      simp only [linked_cons, beside_none, hrest]

/-- Only cells of the siblings themselves matter. -/
theorem Linked.congr {forest : NumberedForest}
    (hlinked : Linked arena parent previous following forest)
    (hsame : ∀ id ∈ forest.ids, next.get? id = arena.get? id) :
    Linked next parent previous following forest := by
  induction forest using NumberedForest.induction generalizing parent previous following with
  | nil => simp
  | cons id data children rest ihchildren ihrest =>
      simp only [linked_cons, ids_cons, List.mem_cons, List.mem_append] at hlinked hsame ⊢
      obtain ⟨hcell, hchildren, hrest⟩ := hlinked
      exact ⟨(hsame id (.inl rfl)).trans hcell,
        ihchildren hchildren fun other hmem => hsame other (.inr (.inl hmem)),
        ihrest hrest fun other hmem => hsame other (.inr (.inr hmem))⟩

theorem Linked.get?_of_mem {forest : NumberedForest}
    (hlinked : Linked arena parent previous following forest) {id : Nat}
    (hmem : id ∈ forest.ids) : ∃ cell, arena.get? id = some cell := by
  induction forest using NumberedForest.induction generalizing parent previous following with
  | nil => simp at hmem
  | cons other data children rest ihchildren ihrest =>
      rw [linked_cons] at hlinked
      rw [ids_cons, List.mem_cons, List.mem_append] at hmem
      rcases hmem with rfl | hmem | hmem
      · exact ⟨_, hlinked.1⟩
      · exact ihchildren hlinked.2.1 hmem
      · exact ihrest hlinked.2.2 hmem

/-- Another neighbour after the siblings concerns the last of them only. -/
theorem Linked.with_next {forest : NumberedForest} {after : Option Nat}
    (hlinked : Linked arena parent previous following forest) (hdistinct : forest.ids.Nodup)
    (hlast : ∀ id ∈ lastId forest,
      next.get? id = (arena.get? id).map ({ · with next := beside parent after }))
    (hsame : ∀ id ∈ forest.ids, id ∉ lastId forest → next.get? id = arena.get? id) :
    Linked next parent previous after forest := by
  induction forest using NumberedForest.induction generalizing previous with
  | nil => simp
  | cons id data children rest _ ih =>
      rw [linked_cons] at hlinked
      obtain ⟨hcell, hchildren, hrest⟩ := hlinked
      rw [ids_cons, List.nodup_cons, List.nodup_append] at hdistinct
      obtain ⟨hid, -, hdistinct, hdisjoint⟩ := hdistinct
      rw [lastId_cons] at hlast hsame
      have hchildren : Linked next (some id) none none children := by
        refine hchildren.congr fun other hmem => hsame other (by simp [hmem]) fun hother => ?_
        rcases Option.or_eq_some_iff.mp hother with hother | ⟨-, hother⟩
        · exact hdisjoint other hmem other (mem_ids_of_lastId hother) rfl
        · obtain rfl : id = other := Option.some.inj hother
          exact hid (List.mem_append_left _ hmem)
      cases rest with
      | nil =>
          have hnext := hlast id rfl
          rw [hcell] at hnext
          exact linked_cons.mpr ⟨hnext, hchildren, linked_nil⟩
      | cons tree rest =>
          obtain ⟨last, hsome⟩ : ∃ last, lastId (tree :: rest) = some last := by
            rw [lastId_cons]
            cases lastId rest <;> simp
          rw [hsome, Option.some_or] at hlast hsame
          have hne : last ≠ id := fun heq =>
            hid (List.mem_append_right _ (heq ▸ mem_ids_of_lastId hsome))
          have hkept : next.get? id = arena.get? id :=
            hsame id (by simp) fun heq => hne (Option.some.inj heq)
          refine linked_cons.mpr ⟨hkept.trans hcell, hchildren, ih hrest hdistinct ?_ ?_⟩
          · exact fun other hother => hlast other (hsome ▸ hother)
          · exact fun other hmem hother =>
              hsame other (by simp [hmem]) fun heq => hother (hsome ▸ heq)

/-- Another neighbour before the siblings concerns the first of them only. -/
theorem Linked.with_previous {forest : NumberedForest} {before : Option Nat}
    (hlinked : Linked arena parent previous following forest) (hdistinct : forest.ids.Nodup)
    (hfirst : ∀ id ∈ firstId forest,
      next.get? id = (arena.get? id).map ({ · with previous := beside parent before }))
    (hsame : ∀ id ∈ forest.ids, id ∉ firstId forest → next.get? id = arena.get? id) :
    Linked next parent before following forest := by
  cases forest with
  | nil => simp
  | cons tree rest =>
      obtain ⟨id, data, children⟩ := tree
      rw [linked_cons] at hlinked
      obtain ⟨hcell, hchildren, hrest⟩ := hlinked
      rw [ids_cons, List.nodup_cons] at hdistinct
      have hkept : ∀ other ∈ ids children ++ ids rest, next.get? other = arena.get? other := by
        intro other hmem
        refine hsame other (by simpa using .inr (List.mem_append.mp hmem)) fun heq => ?_
        obtain rfl : id = other := Option.some.inj heq
        exact hdistinct.1 hmem
      have hnext := hfirst id rfl
      rw [hcell] at hnext
      exact linked_cons.mpr ⟨hnext,
        hchildren.congr fun other hmem => hkept other (List.mem_append_left _ hmem),
        hrest.congr fun other hmem => hkept other (List.mem_append_right _ hmem)⟩

/-- The cells around a place are those that the place calls for when the siblings there
begin and end with the given nodes. -/
def Around (arena : Arena) : Place → (first last : Option Nat) → Prop
  | [], _, _ => True
  | frame :: place, first, last =>
    arena.get? frame.id = some
        { data := frame.data
          parent := Place.parent place
          previous := beside (Place.parent place) (lastId frame.before)
          next := beside (Place.parent place) (firstId frame.after)
          first
          last } ∧
      Linked arena (Place.parent place) none (some frame.id) frame.before ∧
      Linked arena (Place.parent place) (some frame.id) none frame.after ∧
      Around arena place ((firstId frame.before).or (some frame.id))
        ((lastId frame.after).or (some frame.id))

theorem linked_plug {place : Place} {forest : NumberedForest} :
    Linked arena none none none (place.plug forest) ↔
      Around arena place (firstId forest) (lastId forest) ∧
        Linked arena place.parent none none forest := by
  induction place generalizing forest with
  | nil => simp [Around, Place.parent]
  | cons frame place ih =>
      rw [Place.plug_cons, ih, Around, linked_append, linked_cons, firstId_append,
        lastId_append, lastId_cons, firstId_cons]
      simp only [NumberedTree.id_node, Option.or_none, Option.or_some]
      rw [Option.some_or, Place.parent_cons]
      constructor
      · rintro ⟨haround, hbefore, hcell, hforest, hafter⟩
        exact ⟨⟨hcell, hbefore, hafter, haround⟩, hforest⟩
      · rintro ⟨⟨hcell, hbefore, hafter, haround⟩, hforest⟩
        exact ⟨haround, hbefore, hcell, hforest, hafter⟩

theorem Around.congr {place : Place} {first last : Option Nat}
    (haround : Around arena place first last)
    (hsame : ∀ id ∈ place.ids, next.get? id = arena.get? id) : Around next place first last := by
  induction place generalizing first last with
  | nil => trivial
  | cons frame place ih =>
      simp only [Place.ids, List.mem_cons, List.mem_append] at hsame
      obtain ⟨hcell, hbefore, hafter, haround⟩ := haround
      exact ⟨(hsame _ (.inl rfl)).trans hcell,
        hbefore.congr fun id hmem => hsame id (.inr (.inl (.inl hmem))),
        hafter.congr fun id hmem => hsame id (.inr (.inl (.inr hmem))),
        ih haround fun id hmem => hsame id (.inr (.inr hmem))⟩

/-- Other first and last children concern the parent only. -/
theorem Around.with_ends {frame : Frame} {place : Place} {first last : Option Nat}
    (haround : Around arena (frame :: place) first last)
    (hdistinct : (Place.ids (frame :: place)).Nodup) {begins ends : Option Nat}
    (hparent : next.get? frame.id =
      (arena.get? frame.id).map ({ · with first := begins, last := ends }))
    (hsame : ∀ id ∈ Place.ids (frame :: place), id ≠ frame.id → next.get? id = arena.get? id) :
    Around next (frame :: place) begins ends := by
  obtain ⟨hcell, hbefore, hafter, haround⟩ := haround
  rw [hcell] at hparent
  rw [Place.ids, List.nodup_cons] at hdistinct
  have hkept : ∀ id ∈ frame.before.ids ++ frame.after.ids ++ Place.ids place,
      next.get? id = arena.get? id := fun id hmem =>
    hsame id (by rw [Place.ids]; exact List.mem_cons_of_mem _ hmem)
      fun heq => hdistinct.1 (heq ▸ hmem)
  simp only [List.mem_append] at hkept
  exact ⟨hparent, hbefore.congr fun id hmem => hkept id (.inl (.inl hmem)),
    hafter.congr fun id hmem => hkept id (.inl (.inr hmem)),
    haround.congr fun id hmem => hkept id (.inr hmem)⟩

namespace Stores

variable {roots others : NumberedForest}

theorem exists_cell (hstores : Stores arena roots) {id : Nat} (hmem : id ∈ roots.ids) :
    ∃ cell, arena.get? id = some cell :=
  hstores.linked.get?_of_mem hmem

theorem mem_iff (hstores : Stores arena roots) (id : Nat) :
    id ∈ roots.ids ↔ (arena.get? id).isSome := by
  rw [Option.isSome_iff_exists]
  exact ⟨hstores.exists_cell, fun ⟨cell, hcell⟩ => hstores.live id cell hcell⟩

/-- Linking and unlinking keeps what is in use. -/
theorem relinked (hstores : Stores arena roots) (hperm : others.ids.Perm roots.ids)
    (hlinked : Linked next none none none others) (hkeeps : Keeps arena next) :
    Stores next others where
  distinct := hperm.nodup_iff.mpr hstores.distinct
  linked := hlinked
  live id cell hcell := by
    rw [hperm.mem_iff, hstores.mem_iff, ← hkeeps.live, hcell]
    rfl
  tidy := by
    refine ⟨hkeeps.free ▸ hstores.tidy.nodup, fun id => ?_⟩
    rw [hkeeps.free, hkeeps.size, hstores.tidy.mem_free]
    have hlive := hkeeps.live id
    cases hcell : next.get? id <;> cases hother : arena.get? id <;> simp_all

variable {frame : Frame} {place : Place} {before after : NumberedForest} {tree : NumberedTree}

/-- No node is in two of the parts that are around another: what is below it, before it, after it
and around them. -/
theorem apart_around
    (hdistinct : (ids (tree :: Place.plug (frame :: place) (before ++ after))).Nodup) :
    (∀ id ∈ tree.children.ids,
        id ≠ tree.id ∧ id ≠ frame.id ∧ id ∉ lastId before ∧ id ∉ firstId after) ∧
      (before.ids.Nodup ∧ ∀ id ∈ before.ids, id ≠ tree.id ∧ id ≠ frame.id ∧ id ∉ firstId after) ∧
      (after.ids.Nodup ∧ ∀ id ∈ after.ids, id ≠ tree.id ∧ id ≠ frame.id ∧ id ∉ lastId before) ∧
      (Place.ids (frame :: place)).Nodup ∧
      ∀ id ∈ Place.ids (frame :: place), id ≠ tree.id ∧ id ∉ lastId before ∧ id ∉ firstId after := by
  have hperm := Place.ids_plug (frame :: place) (before ++ after)
  rw [ids_cons_eq, ((hperm.append_left _).cons _).nodup_iff] at hdistinct
  simp only [ids_append, List.nodup_cons, List.nodup_append, List.mem_append] at hdistinct
  have hframe : frame.id ∈ Place.ids (frame :: place) := by simp [Place.ids]
  have hlast : ∀ id ∈ lastId before, id ∈ before.ids := fun _ => mem_ids_of_lastId
  have hhead : ∀ id ∈ firstId after, id ∈ after.ids := fun _ => mem_ids_of_firstId
  -- Of what is around them only the parent matters.
  generalize Place.ids (frame :: place) = around at hdistinct hframe ⊢
  refine ⟨?_, ⟨?_, ?_⟩, ⟨?_, ?_⟩, ?_, ?_⟩ <;> grind

/-- What linking and unlinking a node leaves as it was: the nodes below it, those beside it but for
their links to their neighbours, and those around them but for the ends of the parent. -/
theorem linked_around {begins ends preceding following first last other another : Option Nat}
    (hdistinct : (ids (tree :: Place.plug (frame :: place) (before ++ after))).Nodup)
    (hparent : next.get? frame.id = (arena.get? frame.id).map
      ({ · with first := begins, last := ends }))
    (hbefore : ∀ id ∈ lastId before,
      next.get? id = (arena.get? id).map ({ · with next := following }))
    (hafter : ∀ id ∈ firstId after,
      next.get? id = (arena.get? id).map ({ · with previous := preceding }))
    (hsame : ∀ id, id ≠ tree.id → id ≠ frame.id → id ∉ lastId before → id ∉ firstId after →
      next.get? id = arena.get? id)
    (hchildren : Linked arena (some tree.id) none none tree.children)
    (hfirst : Linked arena (some frame.id) none other before)
    (hsecond : Linked arena (some frame.id) another none after)
    (haround : Around arena (frame :: place) first last) :
    Linked next (some tree.id) none none tree.children ∧
      Linked next (some frame.id) none following before ∧
      Linked next (some frame.id) preceding none after ∧
      Around next (frame :: place) begins ends := by
  obtain ⟨hbelow, ⟨hdistinctBefore, hleft⟩, ⟨hdistinctAfter, hright⟩, hdistinctAround, houter⟩ :=
    apart_around hdistinct
  refine ⟨hchildren.congr fun id hmem => ?_,
    hfirst.with_next hdistinctBefore hbefore fun id hmem hend => ?_,
    hsecond.with_previous hdistinctAfter hafter fun id hmem hend => ?_,
    haround.with_ends hdistinctAround hparent fun id hmem hend => ?_⟩
  · obtain ⟨htree, hframe, hlast, hhead⟩ := hbelow id hmem
    exact hsame id htree hframe hlast hhead
  · obtain ⟨htree, hframe, hhead⟩ := hleft id hmem
    exact hsame id htree hframe hend hhead
  · obtain ⟨htree, hframe, hlast⟩ := hright id hmem
    exact hsame id htree hframe hlast hend
  · obtain ⟨htree, hlast, hhead⟩ := houter id hmem
    exact hsame id htree hend hlast hhead

/-- A root is linked as a child of another node. -/
theorem of_attach (hstores : Stores arena (tree :: Place.plug (frame :: place) (before ++ after)))
    (htree : next.get? tree.id = (arena.get? tree.id).map
      ({ · with parent := some frame.id, previous := lastId before, next := firstId after }))
    (hparent : next.get? frame.id = (arena.get? frame.id).map
      ({ · with
          first := firstId (before ++ tree :: after)
          last := lastId (before ++ tree :: after) }))
    (hbefore : ∀ id ∈ lastId before,
      next.get? id = (arena.get? id).map ({ · with next := some tree.id }))
    (hafter : ∀ id ∈ firstId after,
      next.get? id = (arena.get? id).map ({ · with previous := some tree.id }))
    (hsame : ∀ id, id ≠ tree.id → id ≠ frame.id → id ∉ lastId before → id ∉ firstId after →
      next.get? id = arena.get? id)
    (hkeeps : Keeps arena next) :
    Stores next (Place.plug (frame :: place) (before ++ tree :: after)) := by
  obtain ⟨hcell, hchildren, hplug⟩ := linked_tree.mp hstores.linked
  obtain ⟨haround, hsiblings⟩ := linked_plug.mp ((linked_root _ _).mp hplug)
  obtain ⟨hfirst, hsecond⟩ := linked_append.mp hsiblings
  obtain ⟨hchildren, hfirst, hsecond, haround⟩ := linked_around hstores.distinct hparent hbefore
    hafter hsame hchildren hfirst hsecond haround
  refine hstores.relinked ?_ ?_ hkeeps
  · exact Place.ids_plug_middle ..
  · refine linked_plug.mpr ⟨haround, linked_append.mpr ⟨hfirst, linked_tree.mpr ⟨?_, hchildren, ?_⟩⟩⟩
    · rw [htree, hcell]
      simp
    · exact hsecond

/-- A child is unlinked from its parent and becomes a root. -/
theorem of_detach (hstores : Stores arena (Place.plug (frame :: place) (before ++ tree :: after)))
    (htree : next.get? tree.id = (arena.get? tree.id).map
      ({ · with parent := none, previous := none, next := none }))
    (hparent : next.get? frame.id = (arena.get? frame.id).map
      ({ · with first := firstId (before ++ after), last := lastId (before ++ after) }))
    (hbefore : ∀ id ∈ lastId before,
      next.get? id = (arena.get? id).map ({ · with next := firstId after }))
    (hafter : ∀ id ∈ firstId after,
      next.get? id = (arena.get? id).map ({ · with previous := lastId before }))
    (hsame : ∀ id, id ≠ tree.id → id ≠ frame.id → id ∉ lastId before → id ∉ firstId after →
      next.get? id = arena.get? id)
    (hkeeps : Keeps arena next) :
    Stores next (tree :: Place.plug (frame :: place) (before ++ after)) := by
  obtain ⟨haround, hsiblings⟩ := linked_plug.mp hstores.linked
  obtain ⟨hfirst, hsecond⟩ := linked_append.mp hsiblings
  obtain ⟨hcell, hchildren, hsecond⟩ := linked_tree.mp hsecond
  have hmiddle := Place.ids_plug_middle (frame :: place) before after tree
  obtain ⟨hchildren, hfirst, hsecond, haround⟩ := linked_around
    (hmiddle.nodup_iff.mp hstores.distinct) hparent hbefore hafter hsame hchildren hfirst hsecond
    haround
  refine hstores.relinked hmiddle.symm ?_ hkeeps
  · refine linked_tree.mpr ⟨?_, hchildren, (linked_root _ _).mpr (linked_plug.mpr ⟨haround, ?_⟩)⟩
    · rw [htree, hcell]
      simp
    · refine linked_append.mpr ⟨?_, ?_⟩
      · rwa [Option.or_none]
      · rwa [Option.or_none]

end Stores

end Arena

end PageMarkup
