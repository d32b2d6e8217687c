import Mathlib.Data.List.DropRight
import PageMarkup.Proofs.Arena.Contract
import PageMarkup.Proofs.Arena.Sifting
import PageMarkup.Proofs.Text.Trimming

/-! # Trimming the edges of a node

What trimming does to the ordered forest of an arena. The children of a node are cut in three:
blank text leaves at the front, what stays, and blank text leaves at the back, where the part
that stays begins and ends with something else. The edges go, the texts at the outer ends of
what stays are trimmed, and nothing else changes. What is then outermost is left alone when the
node is trimmed again.
-/

namespace PageMarkup

open NumberedForest

/-- Whether the entry is that of a leaf that holds nothing but text. -/
def Entry.isTextLeaf (entry : Entry) : Bool :=
  entry.children.isEmpty && entry.data.element.isNone &&
    (entry.data.kind == .text || entry.data.kind == .ready)

/-- The entry with its text trimmed if it is that of a text leaf. -/
def Entry.trimLeaf (trimText : String → String) (entry : Entry) : Entry :=
  if entry.isTextLeaf then
    { entry with data := { entry.data with text := trimText entry.data.text } }
  else entry

namespace OrderedForest

/-- Whether a node is a text leaf with nothing but white space. -/
def isBlankLeaf (forest : OrderedForest) (id : Nat) : Bool :=
  (forest id).any fun entry => entry.isTextLeaf && Text.isBlankText entry.data.text

/-- Some siblings cut before the blank text leaves at their back and after those at their front.
What is between them begins and ends with something else. -/
structure CutAtEdges (forest : OrderedForest) (siblings front kept back : List Nat) : Prop where
  split : siblings = front ++ kept ++ back
  front : ∀ id ∈ front, forest.isBlankLeaf id
  back : ∀ id ∈ back, forest.isBlankLeaf id
  first : ∀ id ∈ kept.head?, ¬ forest.isBlankLeaf id
  last : ∀ id ∈ kept.getLast?, ¬ forest.isBlankLeaf id

/-- Trims the text of a node if it is a text leaf. -/
def trimLeaf (forest : OrderedForest) (trimText : String → String) : Option Nat → OrderedForest
  | none => forest
  | some id => forest.modify id (Entry.trimLeaf trimText)

/-- Trims the texts at the outer ends of some siblings. -/
def trimOuter (forest : OrderedForest) (siblings : List Nat) : OrderedForest :=
  (forest.trimLeaf Text.trimStart siblings.head?).trimLeaf Text.trimEnd siblings.getLast?

end OrderedForest

/-- A list is cut before the longest tail and after the longest front with a property. -/
theorem exists_cut {α : Type} (p : α → Bool) (list : List α) : ∃ front kept back,
    list = front ++ kept ++ back ∧ (∀ x ∈ front, p x) ∧ (∀ x ∈ back, p x) ∧
      (∀ x ∈ kept.head?, ¬ p x) ∧ ∀ x ∈ kept.getLast?, ¬ p x := by
  refine ⟨list.takeWhile p, (list.dropWhile p).rdropWhile p, (list.dropWhile p).rtakeWhile p, ?_,
    List.all_eq_true.mp List.all_takeWhile, fun _ => List.mem_rtakeWhile_imp, ?_, ?_⟩
  · rw [List.append_assoc, List.rdropWhile_append_rtakeWhile, List.takeWhile_append_dropWhile]
  · intro x hx
    have hhead := List.head?_dropWhile_not p list
    obtain ⟨rest, hrest⟩ := List.rdropWhile_prefix p (list.dropWhile p)
    rw [← hrest, List.head?_append, hx, Option.some_or] at hhead
    exact Bool.not_eq_true _ ▸ hhead
  · intro x hx
    have hne : (list.dropWhile p).rdropWhile p ≠ [] := fun hnil => by
      rw [hnil] at hx
      cases hx
    rw [List.getLast?_eq_some_getLast hne] at hx
    obtain rfl := Option.some.inj hx
    exact List.rdropWhile_last_not p _ hne

/-! ## Trees -/

namespace NumberedTree

/-- Whether the tree is a text leaf with nothing but white space. -/
def isBlankLeaf (tree : NumberedTree) : Bool :=
  tree.erase.isTextLeaf && Text.isBlankText tree.data.text

/-- The tree with its text trimmed if it is a text leaf. -/
def trimLeaf (trimText : String → String) (tree : NumberedTree) : NumberedTree :=
  if tree.erase.isTextLeaf then
    .node tree.id { tree.data with text := trimText tree.data.text } tree.children
  else tree

/-- If the tree is a text leaf, its text begins with ink. -/
def Opens (tree : NumberedTree) : Prop :=
  tree.erase.isTextLeaf → Text.BeginsWithInk tree.data.text

/-- If the tree is a text leaf, its text ends with ink. -/
def Closes (tree : NumberedTree) : Prop :=
  tree.erase.isTextLeaf → Text.EndsWithInk tree.data.text

section

variable (trimText : String → String) (parent : Option Nat) (tree : NumberedTree)

@[simp]
theorem id_trimLeaf : (tree.trimLeaf trimText).id = tree.id := by
  rw [trimLeaf]
  split <;> rfl

@[simp]
theorem children_trimLeaf : (tree.trimLeaf trimText).children = tree.children := by
  rw [trimLeaf]
  split <;> rfl

theorem isTextLeaf_entry : (tree.entry parent).isTextLeaf = tree.erase.isTextLeaf := by
  obtain ⟨id, data, children⟩ := tree
  cases children with
  | nil => simp [entry, Entry.isTextLeaf, erase, Tree.isTextLeaf]
  | cons child rest => simp [entry, Entry.isTextLeaf, erase, Tree.isTextLeaf, erase_cons_eq]

theorem entry_trimLeaf :
    (tree.trimLeaf trimText).entry parent = (tree.entry parent).trimLeaf trimText := by
  rw [Entry.trimLeaf, isTextLeaf_entry, trimLeaf]
  split <;> rfl

theorem isTextLeaf_trimLeaf :
    (tree.trimLeaf trimText).erase.isTextLeaf = tree.erase.isTextLeaf := by
  obtain ⟨id, data, children⟩ := tree
  rw [trimLeaf]
  split
  next =>
    cases children with
    | nil => simp [erase, Tree.isTextLeaf]
    | cons child rest => simp [erase, Tree.isTextLeaf, erase_cons_eq]
  next => rfl

theorem isBlankLeaf_trimLeaf
    (htrim : ∀ text, Text.isBlankText (trimText text) = Text.isBlankText text) :
    (tree.trimLeaf trimText).isBlankLeaf = tree.isBlankLeaf := by
  rw [isBlankLeaf, isBlankLeaf, isTextLeaf_trimLeaf, trimLeaf]
  split
  next => rw [data_node, htrim]
  next => rfl

end

variable {tree : NumberedTree}

theorem children_of_isTextLeaf (hleaf : tree.erase.isTextLeaf) : tree.children = [] := by
  obtain ⟨id, data, children⟩ := tree
  cases children with
  | nil => rfl
  | cons child rest =>
      rw [erase, children_node, erase_cons_eq] at hleaf
      cases hleaf

/-- What is asked of the text of a text leaf, once that is trimmed. -/
theorem text_trimLeaf_iff (trimText : String → String) (p : String → Prop) :
    ((tree.trimLeaf trimText).erase.isTextLeaf → p (tree.trimLeaf trimText).data.text) ↔
      (tree.erase.isTextLeaf → p (trimText tree.data.text)) := by
  rw [isTextLeaf_trimLeaf]
  refine forall_congr' fun hleaf => ?_
  rw [trimLeaf, if_pos hleaf, data_node]

theorem text_not_blank (hink : ¬ tree.isBlankLeaf) (hleaf : tree.erase.isTextLeaf) :
    ¬ Text.isBlankText tree.data.text := by
  rw [isBlankLeaf, hleaf, Bool.true_and] at hink
  exact hink

theorem opens_trimLeaf (hink : ¬ tree.isBlankLeaf) : (tree.trimLeaf Text.trimStart).Opens :=
  (text_trimLeaf_iff _ _).mpr fun hleaf =>
    Text.beginsWithInk_trimStart (text_not_blank hink hleaf)

theorem closes_trimLeaf (hink : ¬ tree.isBlankLeaf) : (tree.trimLeaf Text.trimEnd).Closes :=
  (text_trimLeaf_iff _ _).mpr fun hleaf => Text.endsWithInk_trimEnd (text_not_blank hink hleaf)

theorem Opens.trimLeaf (hopens : tree.Opens) : (tree.trimLeaf Text.trimEnd).Opens :=
  (text_trimLeaf_iff _ _).mpr fun hleaf => (hopens hleaf).trimEnd

end NumberedTree

/-! ## Siblings -/

namespace NumberedForest

/-- Trims the text of the first tree if it is a text leaf. -/
def trimFirst (trimText : String → String) : NumberedForest → NumberedForest
  | [] => []
  | tree :: rest => tree.trimLeaf trimText :: rest

/-- Trims the text of the last tree if it is a text leaf. -/
def trimLast (trimText : String → String) (forest : NumberedForest) : NumberedForest :=
  (trimFirst trimText forest.reverse).reverse

variable {trimText : String → String} {forest front kept back : NumberedForest}

theorem trimFront_eq (trimText : String → String) (forest : NumberedForest) :
    trimFront trimText forest = trimFirst trimText (forest.dropWhile NumberedTree.isBlankLeaf) := by
  induction forest with
  | nil => rfl
  | cons tree rest ih =>
      rw [trimFront, List.dropWhile_cons, NumberedTree.isBlankLeaf]
      cases hleaf : tree.erase.isTextLeaf with
      | false => simp [trimFirst, NumberedTree.trimLeaf, hleaf]
      | true =>
          cases hblank : Text.isBlankText tree.data.text with
          | false => simp [trimFirst, NumberedTree.trimLeaf, hleaf]
          | true => simpa using ih

/-- Trimming texts makes no leaf blank. -/
theorem map_isBlankLeaf_trimFirst
    (htrim : ∀ text, Text.isBlankText (trimText text) = Text.isBlankText text)
    (forest : NumberedForest) :
    (trimFirst trimText forest).map NumberedTree.isBlankLeaf =
      forest.map NumberedTree.isBlankLeaf := by
  cases forest with
  | nil => rfl
  | cons tree rest =>
      rw [trimFirst, List.map_cons, List.map_cons, NumberedTree.isBlankLeaf_trimLeaf _ _ htrim]

/-- Trimming the text of the first tree does not make the last tree blank. -/
theorem getLast?_trimFirst (hlast : ∀ tree ∈ forest.getLast?, ¬ tree.isBlankLeaf) :
    ∀ tree ∈ (trimFirst Text.trimStart forest).getLast?, ¬ tree.isBlankLeaf := by
  intro tree hmem
  have hflags := congrArg List.getLast?
    (map_isBlankLeaf_trimFirst Text.isBlankText_trimStart forest)
  rw [List.getLast?_map, List.getLast?_map, hmem] at hflags
  obtain ⟨other, hother, hsame⟩ := Option.map_eq_some_iff.mp hflags.symm
  exact hsame ▸ hlast other hother

theorem trimFirst_append (trimText : String → String) (hne : forest ≠ [])
    (others : NumberedForest) :
    trimFirst trimText (forest ++ others) = trimFirst trimText forest ++ others := by
  cases forest with
  | nil => exact absurd rfl hne
  | cons tree rest => rfl

/-- What is not blank at the front is not dropped. -/
theorem trimFront_of_head (hhead : ∀ tree ∈ forest.head?, ¬ tree.isBlankLeaf) :
    trimFront trimText forest = trimFirst trimText forest := by
  rw [trimFront_eq]
  cases forest with
  | nil => rfl
  | cons tree rest => rw [List.dropWhile_cons_of_neg (hhead tree rfl)]

theorem trimFront_append (trimText : String → String)
    (hfront : ∀ tree ∈ front, tree.isBlankLeaf) (rest : NumberedForest) :
    trimFront trimText (front ++ rest) = trimFront trimText rest := by
  rw [trimFront_eq, List.dropWhile_append_of_pos hfront, ← trimFront_eq]

/-- Trimming both ends cuts off the blank text leaves there, and trims the texts that are then
outermost. -/
theorem trimEdges_append
    (hfront : ∀ tree ∈ front, tree.isBlankLeaf) (hback : ∀ tree ∈ back, tree.isBlankLeaf)
    (hfirst : ∀ tree ∈ kept.head?, ¬ tree.isBlankLeaf)
    (hlast : ∀ tree ∈ kept.getLast?, ¬ tree.isBlankLeaf) :
    trimEdges (front ++ kept ++ back) =
      trimLast Text.trimEnd (trimFirst Text.trimStart kept) := by
  rw [trimEdges, List.append_assoc, trimFront_append _ hfront]
  cases kept with
  | nil =>
      have hnil : trimFront Text.trimStart back = [] := by
        rw [trimFront_eq, List.dropWhile_eq_nil_iff.mpr hback, trimFirst]
      rw [List.nil_append, hnil]
      rfl
  | cons tree rest =>
      have hlast : ∀ last ∈ (trimFirst Text.trimStart (tree :: rest)).reverse.head?,
          ¬ last.isBlankLeaf := by
        rw [List.head?_reverse]
        exact getLast?_trimFirst hlast
      have hkept : trimFront Text.trimStart (tree :: rest ++ back) =
          trimFirst Text.trimStart (tree :: rest ++ back) := trimFront_of_head hfirst
      rw [hkept, trimFirst_append _ (List.cons_ne_nil tree rest), List.reverse_append,
        trimFront_append _ (by simpa using hback), trimFront_of_head hlast]
      rfl

theorem trimLast_concat (trimText : String → String) (rest : NumberedForest) (tree : NumberedTree) :
    trimLast trimText (rest ++ [tree]) = rest ++ [tree.trimLeaf trimText] := by
  rw [trimLast, List.reverse_append, List.reverse_singleton, List.singleton_append, trimFirst,
    List.reverse_cons, List.reverse_reverse]

@[simp]
theorem map_id_trimFirst (trimText : String → String) (forest : NumberedForest) :
    (trimFirst trimText forest).map NumberedTree.id = forest.map NumberedTree.id := by
  cases forest with
  | nil => rfl
  | cons tree rest => rw [trimFirst, List.map_cons, NumberedTree.id_trimLeaf, List.map_cons]

@[simp]
theorem map_id_trimLast (trimText : String → String) (forest : NumberedForest) :
    (trimLast trimText forest).map NumberedTree.id = forest.map NumberedTree.id := by
  rw [trimLast, List.map_reverse, map_id_trimFirst, List.map_reverse, List.reverse_reverse]

theorem closes_getLast? (hlast : ∀ tree ∈ forest.getLast?, ¬ tree.isBlankLeaf) :
    ∀ tree ∈ (trimLast Text.trimEnd forest).getLast?, tree.Closes := by
  cases forest using List.reverseRecOn with
  | nil => nofun
  | append_singleton rest tree _ =>
      rw [trimLast_concat, List.getLast?_concat]
      intro last hmem
      obtain rfl := Option.some.inj hmem
      exact NumberedTree.closes_trimLeaf (hlast tree List.getLast?_concat)

theorem opens_head? (hfirst : ∀ tree ∈ forest.head?, ¬ tree.isBlankLeaf) :
    ∀ tree ∈ (trimLast Text.trimEnd (trimFirst Text.trimStart forest)).head?, tree.Opens := by
  cases forest with
  | nil => nofun
  | cons tree rest =>
      have hopens := NumberedTree.opens_trimLeaf (hfirst tree rfl)
      rw [trimFirst]
      cases rest using List.reverseRecOn with
      | nil =>
          intro first hmem
          obtain rfl := Option.some.inj hmem
          exact hopens.trimLeaf
      | append_singleton rest last _ =>
          rw [← List.cons_append, trimLast_concat, List.cons_append]
          intro first hmem
          obtain rfl := Option.some.inj hmem
          exact hopens

/-- After trimming the outermost trees begin and end with ink if they are text leaves. -/
theorem inked_trimEdges (forest : NumberedForest) :
    (∀ tree ∈ forest.trimEdges.head?, tree.Opens) ∧
      ∀ tree ∈ forest.trimEdges.getLast?, tree.Closes := by
  obtain ⟨front, kept, back, rfl, hfront, hback, hfirst, hlast⟩ :=
    exists_cut NumberedTree.isBlankLeaf forest
  rw [trimEdges_append hfront hback hfirst hlast]
  exact ⟨opens_head? hfirst, closes_getLast? (getLast?_trimFirst hlast)⟩

theorem ids_of_isBlankLeaf (hblank : ∀ tree ∈ forest, tree.isBlankLeaf) :
    forest.ids = forest.map NumberedTree.id := by
  induction forest with
  | nil => simp
  | cons tree rest ih =>
      obtain ⟨htree, hrest⟩ := List.forall_mem_cons.mp hblank
      have hleaf : tree.erase.isTextLeaf := (Bool.and_eq_true_iff.mp htree).1
      rw [ids_cons_eq, NumberedTree.children_of_isTextLeaf hleaf, ih hrest, ids_nil,
        List.nil_append, List.map_cons]

theorem length_trimFront_le (trimText : String → String) (forest : NumberedForest) :
    (forest.trimFront trimText).length ≤ forest.length := by
  have hdrop := (List.dropWhile_suffix (l := forest) NumberedTree.isBlankLeaf).length_le
  rw [trimFront_eq]
  cases hrest : forest.dropWhile NumberedTree.isBlankLeaf with
  | nil => exact Nat.zero_le _
  | cons tree rest => rwa [hrest] at hdrop

end NumberedForest

/-! ## Entries -/

namespace OrderedForest

variable {forest : OrderedForest}

section

variable {siblings front kept back removed : List Nat} {other : Nat}

theorem CutAtEdges.removed_subset (hcut : forest.CutAtEdges siblings front kept back) :
    front ++ back ⊆ siblings := by
  rw [hcut.split]
  intro id hid
  simp only [List.mem_append] at hid ⊢
  tauto

theorem trimLeaf_apply_of_not_mem {trimText : String → String} {target : Option Nat}
    (hnot : other ∉ target) : forest.trimLeaf trimText target other = forest other := by
  cases target with
  | none => rfl
  | some id => exact if_neg fun heq => hnot (congrArg some heq.symm)

theorem trimOuter_apply_of_not_mem (hfirst : other ∉ kept.head?) (hlast : other ∉ kept.getLast?) :
    forest.trimOuter kept other = forest other := by
  rw [trimOuter, trimLeaf_apply_of_not_mem hlast, trimLeaf_apply_of_not_mem hfirst]

/-- A node that stays keeps its entry if it keeps its children. -/
theorem prune_apply_of_kept (hother : other ∉ removed)
    (hchildren : ∀ entry, forest other = some entry → ∀ child ∈ entry.children, child ∉ removed) :
    forest.prune removed other = forest other := by
  rw [prune, if_neg hother]
  cases hentry : forest other with
  | none => rfl
  | some entry =>
      have hkept : entry.children.filter (· ∉ removed) = entry.children :=
        List.filter_eq_self.mpr fun child hchild =>
          decide_eq_true (hchildren entry hentry child hchild)
      rw [Option.map_some, Entry.prune, hkept]

end

variable {place : Place} {before after siblings : NumberedForest} {tree : NumberedTree}

theorem Lists.isBlankLeaf
    (hlists : forest.Lists ((place.plug (before ++ tree :: after)).entries none)) :
    forest.isBlankLeaf tree.id = tree.isBlankLeaf := by
  rw [OrderedForest.isBlankLeaf, hlists.eq_entry, Option.any_some, NumberedTree.isTextLeaf_entry]
  rfl

theorem Lists.isBlankLeaf_of_mem (hlists : forest.Lists ((place.plug siblings).entries none)) :
    ∀ tree ∈ siblings, forest.isBlankLeaf tree.id = tree.isBlankLeaf := by
  intro tree hmem
  obtain ⟨before, after, rfl⟩ := List.append_of_mem hmem
  exact hlists.isBlankLeaf

/-- The entries of a forest with a tree at a place, that of the tree first. -/
theorem entries_plug_tree (place : Place) (before after : NumberedForest) (tree : NumberedTree) :
    ((place.plug (before ++ tree :: after)).entries none).Perm
      ((tree.id, tree.entry (Place.parent place)) ::
        (tree.children.entries (some tree.id) ++
          (NumberedForest.entries (Place.parent place) (before ++ after) ++
            place.entries (before.map NumberedTree.id ++
              tree.id :: after.map NumberedTree.id)))) := by
  refine (Place.entries_plug ..).trans ?_
  rw [List.map_append, List.map_cons, entries_append, entries_append, entries_cons,
    List.perm_iff_count]
  intro entry
  simp only [List.count_cons, List.count_append, NumberedTree.entry]
  omega

/-- The text of a tree at a place is trimmed. -/
theorem Lists.trimLeaf (trimText : String → String)
    (hlists : forest.Lists ((place.plug (before ++ tree :: after)).entries none)) :
    (forest.trimLeaf trimText (some tree.id)).Lists
      ((place.plug (before ++ tree.trimLeaf trimText :: after)).entries none) := by
  have htrimmed := (hlists.perm (entries_plug_tree ..)).modify (Entry.trimLeaf trimText)
  refine htrimmed.perm (List.Perm.trans ?_ (entries_plug_tree ..).symm)
  rw [NumberedTree.id_trimLeaf, NumberedTree.children_trimLeaf, NumberedTree.entry_trimLeaf]

theorem Lists.trimFirst (trimText : String → String)
    (hlists : forest.Lists ((place.plug siblings).entries none)) :
    (forest.trimLeaf trimText (siblings.map NumberedTree.id).head?).Lists
      ((place.plug (trimFirst trimText siblings)).entries none) := by
  cases siblings with
  | nil => exact hlists
  | cons tree rest =>
      rw [← List.nil_append (tree :: rest)] at hlists
      exact hlists.trimLeaf trimText

theorem Lists.trimLast (trimText : String → String)
    (hlists : forest.Lists ((place.plug siblings).entries none)) :
    (forest.trimLeaf trimText (siblings.map NumberedTree.id).getLast?).Lists
      ((place.plug (trimLast trimText siblings)).entries none) := by
  cases siblings using List.reverseRecOn with
  | nil => exact hlists
  | append_singleton rest tree _ =>
      rw [List.map_append, List.map_singleton, List.getLast?_concat, trimLast_concat]
      exact hlists.trimLeaf trimText

theorem Lists.trimOuter (hlists : forest.Lists ((place.plug siblings).entries none)) :
    (forest.trimOuter (siblings.map NumberedTree.id)).Lists
      ((place.plug (NumberedForest.trimLast Text.trimEnd
        (NumberedForest.trimFirst Text.trimStart siblings))).entries none) := by
  have htrimmed := (hlists.trimFirst Text.trimStart).trimLast Text.trimEnd
  rwa [map_id_trimFirst] at htrimmed

/-- Trees that are cut at their blank text leaves have numbers that are. -/
theorem cutAtEdges_map {front kept back : NumberedForest}
    (hsame : ∀ tree ∈ front ++ kept ++ back, forest.isBlankLeaf tree.id = tree.isBlankLeaf)
    (hfront : ∀ tree ∈ front, tree.isBlankLeaf) (hback : ∀ tree ∈ back, tree.isBlankLeaf)
    (hfirst : ∀ tree ∈ kept.head?, ¬ tree.isBlankLeaf)
    (hlast : ∀ tree ∈ kept.getLast?, ¬ tree.isBlankLeaf) :
    forest.CutAtEdges ((front ++ kept ++ back).map NumberedTree.id) (front.map NumberedTree.id)
      (kept.map NumberedTree.id) (back.map NumberedTree.id) := by
  simp only [List.mem_append, or_imp, forall_and] at hsame
  obtain ⟨⟨hsameFront, hsameKept⟩, hsameBack⟩ := hsame
  refine ⟨by rw [List.map_append, List.map_append], ?_, ?_, ?_, ?_⟩
  · exact List.forall_mem_map.mpr fun tree hmem => (hsameFront tree hmem).trans (hfront tree hmem)
  · exact List.forall_mem_map.mpr fun tree hmem => (hsameBack tree hmem).trans (hback tree hmem)
  · intro id hid
    rw [List.head?_map] at hid
    obtain ⟨tree, htree, rfl⟩ := Option.map_eq_some_iff.mp hid
    rw [hsameKept tree (List.mem_of_head? htree)]
    exact hfirst tree htree
  · intro id hid
    rw [List.getLast?_map] at hid
    obtain ⟨tree, htree, rfl⟩ := Option.map_eq_some_iff.mp hid
    rw [hsameKept tree (List.mem_of_getLast? htree)]
    exact hlast tree htree

/-- The blank text leaves at the edges of some siblings are taken out. -/
theorem Lists.cutEdges (hlists : forest.Lists ((place.plug siblings).entries none)) :
    ∃ (front back : List Nat) (kept : NumberedForest),
      forest.CutAtEdges (siblings.map NumberedTree.id) front (kept.map NumberedTree.id) back ∧
      siblings.trimEdges = NumberedForest.trimLast Text.trimEnd
        (NumberedForest.trimFirst Text.trimStart kept) ∧
      (forest.prune (front ++ back)).Lists ((place.plug kept).entries none) := by
  have hsame := hlists.isBlankLeaf_of_mem
  obtain ⟨front, kept, back, rfl, hfront, hback, hfirst, hlast⟩ :=
    exists_cut NumberedTree.isBlankLeaf siblings
  refine ⟨_, _, kept, cutAtEdges_map hsame hfront hback hfirst hlast,
    trimEdges_append hfront hback hfirst hlast, ?_⟩
  rw [← ids_of_isBlankLeaf hfront, ← ids_of_isBlankLeaf hback, ← prune_prune]
  rw [List.append_assoc, ← List.nil_append (front ++ (kept ++ back))] at hlists
  have hcut := hlists.prune_block
  rw [List.nil_append, ← List.append_nil back] at hcut
  have hkept := hcut.prune_block
  rwa [List.append_nil] at hkept

/-- The blank text leaves at the edges of some siblings are taken out, and the texts at the outer
ends of those that are left are trimmed. -/
theorem Lists.trimEdges (hlists : forest.Lists ((place.plug siblings).entries none)) :
    ∃ front back, forest.CutAtEdges (siblings.map NumberedTree.id) front
        (siblings.trimEdges.map NumberedTree.id) back ∧
      ((forest.prune (front ++ back)).trimOuter (siblings.trimEdges.map NumberedTree.id)).Lists
        ((place.plug siblings.trimEdges).entries none) := by
  obtain ⟨front, back, kept, hcut, htrimmed, hkept⟩ := hlists.cutEdges
  rw [htrimmed, map_id_trimLast, map_id_trimFirst]
  exact ⟨front, back, hcut, hkept.trimOuter⟩

end OrderedForest

/-! ## In an arena -/

namespace Arena

variable {arena next : Arena} {frame : Frame} {place : Place} {siblings others : NumberedForest}
  {tree : NumberedTree} {id : Nat} {entry : Entry}

/-- A change that leaves a node as it is leaves the arena as it is. -/
theorem modify_of_fixed {cell : Cell} {f : Cell → Cell} (hcell : arena.get? id = some cell)
    (hfixed : f cell = cell) : arena.modify id f = .ok arena := by
  have hslot : arena.slots[id]? = some (some cell) := Option.join_eq_some_iff.mp hcell
  have hsame : arena.slots.setIfInBounds id (some cell) = arena.slots := by
    apply Array.ext_getElem?
    intro other
    rw [Array.getElem?_setIfInBounds]
    split
    next heq => grind
    next => rfl
  rw [modify, get_eq hcell, ok_bind, hfixed, hsame]
  rfl

namespace Stores

/-- Nothing is trimmed at an end that is not white space. -/
theorem trimEnd_of_ink {outermost : Cell → Option Nat} {arrange : NumberedForest → NumberedForest}
    (hend : IsEnd outermost arrange) {trimText : String → String}
    (hink : ∀ tree ∈ siblings.head?, tree.erase.isTextLeaf →
      ¬ Text.isBlankText tree.data.text ∧ trimText tree.data.text = tree.data.text)
    (hstores : Stores arena (Place.plug (frame :: place) (arrange siblings))) (fuel : Nat) :
    Arena.trimEnd outermost trimText frame.id fuel arena = .ok arena := by
  cases fuel with
  | zero => rw [Arena.trimEnd]
  | succ fuel =>
      cases siblings with
      | nil => exact trimEnd_nil hend trimText hstores _
      | cons tree rest =>
          rw [trimEnd_cons hend trimText hstores]
          split
          next hleaf =>
            obtain ⟨hnot, hfixed⟩ := hink tree rfl hleaf
            obtain ⟨before, after, -, hsplit⟩ := hend.split rest
            rw [hsplit] at hstores
            obtain ⟨cell, hcell, hdata, -⟩ := hstores.exists_get
            rw [if_neg hnot, Arena.update]
            refine modify_of_fixed (get?_of_get hcell) ?_
            rw [hdata, hfixed, ← hdata]
          next => rfl

/-- Nothing is trimmed where the outermost texts begin and end with ink. -/
theorem trimEdges_of_ink (hopens : ∀ tree ∈ siblings.head?, tree.Opens)
    (hcloses : ∀ tree ∈ siblings.getLast?, tree.Closes)
    (hstores : Stores arena (Place.plug (frame :: place) siblings)) :
    arena.trimEdges frame.id = .ok arena := by
  have hleading := trimEnd_of_ink isEnd_first
    (fun tree htree hleaf => Text.beginsWithInk_iff.mp (hopens tree htree hleaf)) hstores
  rw [← List.reverse_reverse siblings] at hstores
  have htrailing := trimEnd_of_ink isEnd_last
    (fun tree htree hleaf => Text.endsWithInk_iff.mp
      (hcloses tree (List.head?_reverse ▸ htree) hleaf)) hstores
  rw [Arena.trimEdges, hleading, ok_bind, htrailing]

end Stores

/-- Another list of siblings at a place leaves an arena well-formed. -/
theorem WellFormed.of_plug (harena : arena.WellFormed)
    (hstores : Stores arena (Place.plug (frame :: place) siblings))
    (hroot : root ∈ (Place.plug (frame :: place) siblings).map NumberedTree.id)
    (hnext : Stores next (Place.plug (frame :: place) others)) : next.WellFormed := by
  obtain ⟨tree, hid, hsingle⟩ := harena.eq_singleton hstores hroot
  have hids := map_id_plug frame place others siblings
  rw [hsingle, List.map_singleton, hid] at hids
  obtain ⟨other, hother, hroot⟩ := List.map_eq_singleton_iff.mp hids
  exact (hother ▸ hnext).wellFormed hroot

/-- Trimming takes the blank text leaves off both ends of the children of a node and the white
space off the outer ends of the texts that are then outermost, and nothing else. Each loop ends
after at most one round for each child and another one, however many it may take. Afterwards the
outermost texts begin and end with ink, and trimming once more changes nothing. -/
theorem trimEdges_exact (harena : arena.Coherent) (hentry : arena.forest id = some entry) :
    ∃ leading next front kept back,
      (∀ rounds, entry.children.length < rounds →
        trimEnd Cell.first Text.trimStart id rounds arena = .ok leading ∧
        trimEnd Cell.last Text.trimEnd id rounds leading = .ok next) ∧
      arena.trimEdges id = .ok next ∧
      next.Coherent ∧ (arena.WellFormed → next.WellFormed) ∧
      arena.forest.CutAtEdges entry.children front kept back ∧
      next.forest = (arena.forest.prune (front ++ back)).trimOuter kept ∧
      next.forest id = some { entry with children := kept } ∧
      (∀ other, other ≠ id → other ∉ front ++ back → other ∉ kept.head? → other ∉ kept.getLast? →
        next.forest other = arena.forest other) ∧
      (∀ first ∈ kept.head?, ∃ found, next.forest first = some found ∧
        (found.isTextLeaf → Text.BeginsWithInk found.data.text)) ∧
      (∀ last ∈ kept.getLast?, ∃ found, next.forest last = some found ∧
        (found.isTextLeaf → Text.EndsWithInk found.data.text)) ∧
      next.trimEdges id = .ok next := by
  obtain ⟨roots, hstores, hroot⟩ := coherent_iff.mp harena
  have hchildren := hstores.parent_of_mem
  obtain ⟨place, before, tree, after, rfl, rfl, rfl⟩ := hstores.exists_tree hentry
  rw [← Place.plug_frame] at hstores hroot
  obtain ⟨leading, next, hleading, hnext, htrim, hstoresNext⟩ := hstores.trimEnds
  obtain ⟨front, back, hcut, hlists⟩ := hstores.lists.trimEdges
  have hforest := hstoresNext.lists.unique hlists
  have hlength := length_trimFront_le Text.trimStart tree.children
  obtain ⟨hopens, hcloses⟩ := inked_trimEdges tree.children
  have htold : ∀ child ∈ tree.children.trimEdges,
      next.forest child.id = some (child.entry (some tree.id)) := by
    intro child hchild
    obtain ⟨first, second, hsplit⟩ := List.append_of_mem hchild
    rw [hsplit] at hstoresNext
    exact hstoresNext.lists.eq_entry
  refine ⟨leading, next, front, _, back, fun rounds hrounds => ⟨?_, ?_⟩, htrim, ?_, ?_, hcut,
    hforest, ?_, ?_, ?_, ?_, hstoresNext.trimEdges_of_ink hopens hcloses⟩
  · rw [List.length_map] at hrounds
    exact hleading rounds hrounds
  · rw [List.length_map] at hrounds
    exact hnext rounds (Nat.lt_of_le_of_lt hlength hrounds)
  · apply hstoresNext.coherent
    rwa [map_id_plug _ _ _ tree.children]
  · exact fun hwellFormed => hwellFormed.of_plug hstores hroot hstoresNext
  · have htree : Stores next (place.plug (before ++
        .node tree.id tree.data tree.children.trimEdges :: after)) := hstoresNext
    exact htree.forest_tree
  · intro other hne hkept hfirst hlast
    rw [hforest, OrderedForest.trimOuter_apply_of_not_mem hfirst hlast]
    apply OrderedForest.prune_apply_of_kept hkept
    intro found hfound child hchild hremoved
    -- A child that goes is one of this node, so it is none of another.
    have hparent := hchildren _ _ hentry child (hcut.removed_subset hremoved)
    exact hne ((hchildren other found hfound child hchild).unique hparent)
  · intro first hfirst
    rw [List.head?_map] at hfirst
    obtain ⟨child, hchild, rfl⟩ := Option.map_eq_some_iff.mp hfirst
    refine ⟨_, htold child (List.mem_of_head? hchild), ?_⟩
    rw [NumberedTree.isTextLeaf_entry]
    exact hopens child hchild
  · intro last hlast
    rw [List.getLast?_map] at hlast
    obtain ⟨child, hchild, rfl⟩ := Option.map_eq_some_iff.mp hlast
    refine ⟨_, htold child (List.mem_of_getLast? hchild), ?_⟩
    rw [NumberedTree.isTextLeaf_entry]
    exact hcloses child hchild

/-- A paragraph of a blank text, a text in two styles and a text with white space around it. -/
def trimExample : Arena where
  slots :=
    #[ some { data := { kind := .documentRoot }, first := some 1, last := some 1 }
     , some { data := { kind := .paragraph }, parent := some 0, first := some 2, last := some 6 }
     , some { data := { kind := .text, text := " " }, parent := some 1, next := some 3 }
     , some { data := { kind := .aggregate (.style .em), opener := some ⟨1, 1⟩ },
              parent := some 1, previous := some 2, next := some 6, first := some 4,
              last := some 4 }
     , some { data := { kind := .aggregate (.style .bold), opener := some ⟨2, 2⟩ },
              parent := some 3, first := some 5, last := some 5 }
     , some { data := { kind := .text, text := "a" }, parent := some 4 }
     , some { data := { kind := .text, text := " b " }, parent := some 1, previous := some 3 } ]
  free := []

/-- The tree of the example. -/
def trimTree : NumberedTree :=
  .node 0 { kind := .documentRoot }
    [ .node 1 { kind := .paragraph }
      [ .node 2 { kind := .text, text := " " } []
      , .node 3 { kind := .aggregate (.style .em), opener := some ⟨1, 1⟩ }
          [ .node 4 { kind := .aggregate (.style .bold), opener := some ⟨2, 2⟩ }
              [.node 5 { kind := .text, text := "a" } []] ]
      , .node 6 { kind := .text, text := " b " } [] ] ]

theorem trimExample_stores : Stores trimExample [trimTree] := by
  have hids : NumberedForest.ids [trimTree] = [0, 1, 2, 3, 4, 5, 6] := by simp [trimTree]
  apply stores_of_slots hids (by decide) ?_ (by decide) (by decide)
  simp only [trimTree, linked_cons, linked_nil]
  decide

/-- The paragraph of the example keeps its last two children and has nothing more to trim. -/
theorem trimEdges_exact_trimExample : trimExample.Coherent ∧
    trimExample.forest 1 = some ⟨{ kind := .paragraph }, some 0, [2, 3, 6]⟩ ∧
    ∃ next, trimExample.trimEdges 1 = .ok next ∧ next.WellFormed ∧
      next.forest 1 = some ⟨{ kind := .paragraph }, some 0, [3, 6]⟩ ∧
      next.trimEdges 1 = .ok next := by
  have hwellFormed := trimExample_stores.wellFormed rfl
  have hentry : trimExample.forest 1 = some ⟨{ kind := .paragraph }, some 0, [2, 3, 6]⟩ := by decide
  refine ⟨hwellFormed.coherent, hentry, ?_⟩
  obtain ⟨leading, next, front, kept, back, -, htrim, -, hnext, -, -, -, -, -, -, hagain⟩ :=
    trimEdges_exact hwellFormed.coherent hentry
  refine ⟨next, htrim, hnext hwellFormed, ?_, hagain⟩
  have hchildren : (trimExample.trimEdges 1).map (·.forest 1) =
      .ok (some ⟨{ kind := .paragraph }, some 0, [3, 6]⟩) := by decide
  rw [htrim] at hchildren
  exact Except.ok.inj hchildren

end Arena

end PageMarkup
