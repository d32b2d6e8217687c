import Mathlib.Logic.Relation
import PageMarkup.Arena.Basic

/-! # Ordered forests

What the links of an arena are for: under each number there is a node with what it holds, its
parent and the list of its children in order. Linking and unlinking are said here in terms of
such lists alone. Each operation changes the entries that it names and no others.
-/

namespace PageMarkup

open Relation

/-- A node of an ordered forest. -/
structure Entry where
  data : Node
  parent : Option Nat
  /-- The children, the first one at the head. -/
  children : List Nat
  deriving DecidableEq, Repr

/-- The nodes of an ordered forest by number. -/
abbrev OrderedForest := Nat → Option Entry

namespace OrderedForest

/-- The node is there. -/
def Live (forest : OrderedForest) (id : Nat) : Prop := ∃ entry, forest id = some entry

/-- The first node is the parent of the second. -/
def Parent (forest : OrderedForest) (above id : Nat) : Prop :=
  ∃ entry, forest id = some entry ∧ entry.parent = some above

/-- The second node is the first or somewhere below it. -/
def Below (forest : OrderedForest) : Nat → Nat → Prop := ReflTransGen forest.Parent

/-- The node stands apart, with what is below it. The root of the document does not count. -/
def Detached (forest : OrderedForest) (id : Nat) : Prop :=
  id ≠ Arena.root ∧ ∃ entry, forest id = some entry ∧ entry.parent = none

/-- Changes the entry of a number. -/
def modify (forest : OrderedForest) (id : Nat) (f : Entry → Entry) : OrderedForest :=
  fun other => if other = id then (forest other).map f else forest other

/-- Adds a node that stands apart and has no children. -/
def insert (forest : OrderedForest) (id : Nat) (data : Node) : OrderedForest :=
  fun other => if other = id then some ⟨data, none, []⟩ else forest other

/-- Puts a node among the children of another. -/
def link (forest : OrderedForest) (parent child : Nat) (arrange : List Nat → List Nat) :
    OrderedForest :=
  (forest.modify parent fun entry => { entry with children := arrange entry.children }).modify child
    fun entry => { entry with parent := some parent }

/-- Takes a node out of the children of its parent. -/
def unlink (forest : OrderedForest) (id : Nat) : OrderedForest :=
  match (forest id).bind Entry.parent with
  | some parent =>
    (forest.modify parent fun entry => { entry with children := entry.children.erase id }).modify id
      fun entry => { entry with parent := none }
  | none => forest

/-- Drops some nodes. -/
def without (forest : OrderedForest) (ids : List Nat) : OrderedForest :=
  fun id => if id ∈ ids then none else forest id

/-- Puts the children of one node after those of another. -/
def moveChildren (forest : OrderedForest) (source target : Nat) : OrderedForest :=
  let moved := (forest source).elim [] Entry.children
  fun id => (forest id).map fun entry =>
    if id = source then { entry with children := [] }
    else if id = target then { entry with children := entry.children ++ moved }
    else if id ∈ moved then { entry with parent := some target }
    else entry

/-- Puts a number right before another in a list. -/
def putBefore (sibling id : Nat) : List Nat → List Nat
  | [] => []
  | other :: rest =>
    if other = sibling then id :: other :: rest else other :: putBefore sibling id rest

theorem putBefore_append {before after : List Nat} {sibling id : Nat} (hnot : sibling ∉ before) :
    putBefore sibling id (before ++ sibling :: after) = before ++ id :: sibling :: after := by
  induction before with
  | nil => rw [List.nil_append, putBefore, if_pos rfl, List.nil_append]
  | cons other rest ih =>
      obtain ⟨hne, hnot⟩ : sibling ≠ other ∧ sibling ∉ rest := by simpa using hnot
      rw [List.cons_append, putBefore, if_neg (Ne.symm hne), ih hnot, List.cons_append]

variable {forest : OrderedForest} {above parent child id : Nat} {arrange : List Nat → List Nat}

theorem modify_apply (f : Entry → Entry) (other : Nat) :
    forest.modify id f other = if other = id then (forest other).map f else forest other := rfl

theorem unlink_of_parent (hparent : forest.Parent parent id) :
    forest.unlink id =
      (forest.modify parent fun entry => { entry with children := entry.children.erase id }).modify id
        fun entry => { entry with parent := none } := by
  obtain ⟨entry, hentry, hparent⟩ := hparent
  rw [unlink, hentry, Option.bind_some, hparent]

theorem unlink_of_root {entry : Entry} (hentry : forest id = some entry)
    (hparent : entry.parent = none) : forest.unlink id = forest := by
  rw [unlink, hentry, Option.bind_some, hparent]

@[simp]
theorem live_modify {f : Entry → Entry} {other : Nat} :
    (forest.modify id f).Live other ↔ forest.Live other := by
  rw [Live, Live, modify_apply, ← Option.isSome_iff_exists, ← Option.isSome_iff_exists]
  split <;> simp

@[simp]
theorem live_unlink {other : Nat} : (forest.unlink id).Live other ↔ forest.Live other := by
  rw [unlink]
  split <;> simp

@[simp]
theorem live_link {other : Nat} :
    (forest.link parent child arrange).Live other ↔ forest.Live other := by simp [link]

theorem detached_unlink (hparent : forest.Parent parent child) (hchild : child ≠ Arena.root) :
    (forest.unlink child).Detached child := by
  have ⟨entry, hentry, _⟩ := hparent
  refine ⟨hchild, ?_⟩
  rw [unlink_of_parent hparent, modify_apply, if_pos rfl, modify_apply, hentry]
  split
  next => exact ⟨_, rfl, rfl⟩
  next => exact ⟨_, rfl, rfl⟩

/-! ## What is below a node -/

theorem Parent.unique {first second : Nat} (hfirst : forest.Parent first child)
    (hsecond : forest.Parent second child) : first = second := by
  obtain ⟨entry, hentry, hparent⟩ := hfirst
  obtain ⟨found, hfound, hparent'⟩ := hsecond
  obtain rfl := Option.some.inj (hentry.symm.trans hfound)
  exact Option.some.inj (hparent.symm.trans hparent')

/-- Other children leave every parent as it is. -/
theorem Parent.of_modify_children {children : Entry → List Nat}
    (hparent : (forest.modify child fun entry => { entry with children := children entry }).Parent
      above id) : forest.Parent above id := by
  obtain ⟨entry, hentry, hparent⟩ := hparent
  rw [modify_apply] at hentry
  split at hentry
  next =>
    obtain ⟨before, hbefore, rfl⟩ := Option.map_eq_some_iff.mp hentry
    exact ⟨before, hbefore, hparent⟩
  next => exact ⟨entry, hentry, hparent⟩

/-- Another parent concerns one node only. -/
theorem Parent.of_modify_parent {parent : Option Nat}
    (hparent : (forest.modify child fun entry => { entry with parent }).Parent above id) :
    id = child ∧ parent = some above ∨ forest.Parent above id := by
  obtain ⟨entry, hentry, hparent⟩ := hparent
  rw [modify_apply] at hentry
  split at hentry
  next heq =>
    obtain ⟨before, -, rfl⟩ := Option.map_eq_some_iff.mp hentry
    exact .inl ⟨heq, hparent⟩
  next => exact .inr ⟨entry, hentry, hparent⟩

theorem Parent.of_unlink (hparent : (forest.unlink child).Parent above id) :
    forest.Parent above id := by
  rw [unlink] at hparent
  split at hparent
  next =>
    obtain ⟨-, hnone⟩ | hparent := hparent.of_modify_parent
    · cases hnone
    · exact hparent.of_modify_children
  next => exact hparent

theorem Parent.of_link (hparent : (forest.link parent child arrange).Parent above id) :
    id = child ∧ parent = above ∨ forest.Parent above id := by
  obtain ⟨heq, hsome⟩ | hparent := hparent.of_modify_parent
  · exact .inl ⟨heq, Option.some.inj hsome⟩
  · exact .inr hparent.of_modify_children

/-- Unlinking puts nothing below a node. -/
theorem Below.of_unlink (hbelow : (forest.unlink child).Below above id) :
    forest.Below above id :=
  ReflTransGen.mono (fun _ _ => Parent.of_unlink) _ _ hbelow

/-- Linking puts nothing below a node that the new parent is not below. -/
theorem Below.of_link (hnot : ¬ forest.Below above parent)
    (hbelow : (forest.link parent child arrange).Below above id) : forest.Below above id := by
  induction hbelow with
  | refl => exact .refl
  | tail _ hparent ih =>
      obtain ⟨-, rfl⟩ | hparent := hparent.of_link
      · exact absurd ih hnot
      · exact ih.tail hparent

/-! ## Moving children -/

theorem moveChildren_of_nil {source target : Nat} {entry : Entry}
    (hsource : forest source = some entry) (hchildren : entry.children = []) :
    forest.moveChildren source target = forest := by
  funext id
  rw [moveChildren, hsource, Option.elim_some, hchildren]
  by_cases heq : id = source
  · subst heq
    simp [hsource, ← hchildren]
  · simp [heq]

/-- What is left of the children of a node when the first of them went elsewhere. -/
theorem link_unlink_source {source target : Nat} {entry : Entry} {rest : List Nat}
    (hsource : forest source = some entry) (hchildren : entry.children = child :: rest)
    (hparent : forest.Parent source child) (hne : source ≠ target) (hnot : child ≠ source) :
    (forest.unlink child).link target child arrange source =
      some { entry with children := rest } := by
  simp [unlink_of_parent hparent, link, modify_apply, hsource, hchildren, hne, hnot.symm]

/-- The children of a node are moved one after the other, the first one first. -/
theorem moveChildren_of_cons {source target : Nat} {entry : Entry} {rest : List Nat}
    (hsource : forest source = some entry) (hchildren : entry.children = child :: rest)
    (hparent : forest.Parent source child) (hne : source ≠ target) (hnot : child ≠ source)
    (hnot' : child ≠ target) :
    ((forest.unlink child).link target child (· ++ [child])).moveChildren source target =
      forest.moveChildren source target := by
  funext id
  rw [moveChildren, moveChildren, link_unlink_source hsource hchildren hparent hne hnot, hsource]
  simp only [Option.elim_some, hchildren]
  by_cases hid : id = child
  · subst hid
    by_cases hmem : id ∈ rest <;>
      simp [unlink_of_parent hparent, link, modify_apply, hnot, hnot', hmem, Function.comp_def]
  by_cases heq : id = target
  · subst heq
    simp [unlink_of_parent hparent, link, modify_apply, hid, hne.symm, Function.comp_def]
  by_cases heq' : id = source
  · subst heq'
    simp [unlink_of_parent hparent, link, modify_apply, hid, heq, Function.comp_def]
  · by_cases hmem : id ∈ rest <;>
      simp [unlink_of_parent hparent, link, modify_apply, hid, heq, heq', hmem]

end OrderedForest

end PageMarkup
