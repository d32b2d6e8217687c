import Mathlib.Data.List.Induction
import Mathlib.Data.List.Nodup
import Mathlib.Data.String.Basic
import PageMarkup.Registry.Basic

/-! # Catalogs of listed items

A catalog lists items if it has one entry for each of them, under its key, and if the keys
ascend. Then a key leads to the item that has it. Items are added one after the other, and
the first one that is refused puts an end to it.
-/

namespace PageMarkup

variable {α : Type}

/-! ## Passing in turn -/

/-- No item is refused on account of those before it. -/
def Passes (refuses : List α → α → Prop) (items : List α) : Prop :=
  ∀ before item after, items = before ++ item :: after → ¬refuses before item

namespace Passes

variable {refuses others : List α → α → Prop} {items : List α} {item : α}

theorem nil : Passes refuses [] := fun before item after hnil => by simp at hnil

theorem concat_iff : Passes refuses (items ++ [item]) ↔ Passes refuses items ∧ ¬refuses items item := by
  constructor
  · intro hpasses
    refine ⟨fun before other after hitems => hpasses before other (after ++ [item]) ?_,
      hpasses items item [] rfl⟩
    rw [hitems]
    simp
  · rintro ⟨hpasses, hlast⟩ before other after hsplit
    rcases List.eq_nil_or_concat after with rfl | ⟨rest, last, rfl⟩
    · obtain ⟨rfl, heq⟩ := List.append_inj' hsplit rfl
      cases heq
      exact hlast
    · rw [List.concat_eq_append, ← List.cons_append, ← List.append_assoc] at hsplit
      exact hpasses before other rest (List.append_inj' hsplit rfl).1

/-- Either every item passes, or there is a first one that does not. -/
theorem or_first (refuses : List α → α → Prop) (items : List α) :
    Passes refuses items ∨ ∃ before item after, items = before ++ item :: after ∧
      Passes refuses before ∧ refuses before item := by
  induction items using List.reverseRecOn with
  | nil => exact .inl nil
  | append_singleton items last ih =>
      rcases ih with hpasses | ⟨before, item, after, rfl, hbefore, hrefused⟩
      · by_cases hlast : refuses items last
        · exact .inr ⟨items, last, [], rfl, hpasses, hlast⟩
        · exact .inl (concat_iff.mpr ⟨hpasses, hlast⟩)
      · exact .inr ⟨before, item, after ++ [last], by simp, hbefore, hrefused⟩

theorem or_iff :
    Passes (fun before item => refuses before item ∨ others before item) items ↔
      Passes refuses items ∧ Passes others items := by
  simp only [Passes, not_or, ← forall_and]

/-- No key occurs twice if none is refused for having occurred. -/
theorem nodup_iff {β : Type} {key : α → β} :
    Passes (fun before item => key item ∈ before.map key) items ↔ (items.map key).Nodup := by
  induction items using List.reverseRecOn with
  | nil => simp [nil]
  | append_singleton items last ih =>
      rw [concat_iff, ih, List.map_append, List.map_singleton, ← List.concat_eq_append,
        List.nodup_concat, and_comm]

/-- Items that are judged by themselves pass if each of them does. -/
theorem forall_iff {refused : α → Prop} :
    Passes (fun _ item => refused item) items ↔ ∀ item ∈ items, ¬refused item := by
  constructor
  · intro hpasses item hmem
    obtain ⟨before, after, rfl⟩ := List.append_of_mem hmem
    exact hpasses before item after rfl
  · rintro hall before item after rfl
    exact hall item (by simp)

end Passes

namespace Catalog

variable {ε : Type} {key : α → String} {items : List α} {catalog : Catalog α}

/-- A catalog has one entry for each of some items, in the order of their keys. -/
structure Lists (catalog : Catalog α) (key : α → String) (items : List α) : Prop where
  perm : catalog.entries.Perm (items.map fun item => (key item, item))
  ascending : catalog.entries.Pairwise (·.1 < ·.1)

theorem perm_insertEntry (name : String) (value : α) (entries : List (String × α)) :
    (insertEntry name value entries).Perm ((name, value) :: entries) := by
  induction entries with
  | nil => exact .refl _
  | cons entry rest ih =>
      rw [insertEntry]
      split
      next => exact .refl _
      next => exact (ih.cons entry).trans (.swap ..)

theorem pairwise_insertEntry {name : String} {entries : List (String × α)} (value : α)
    (hascending : entries.Pairwise (·.1 < ·.1)) (hunused : ∀ entry ∈ entries, entry.1 ≠ name) :
    (insertEntry name value entries).Pairwise (·.1 < ·.1) := by
  induction entries with
  | nil => exact List.pairwise_singleton ..
  | cons entry rest ih =>
      obtain ⟨hfirst, hrest⟩ := List.pairwise_cons.mp hascending
      obtain ⟨hentry, hunused⟩ := List.forall_mem_cons.mp hunused
      rw [insertEntry]
      split
      next hlt =>
        exact List.pairwise_cons.mpr ⟨List.forall_mem_cons.mpr
          ⟨hlt, fun other hother => hlt.trans (hfirst other hother)⟩, hascending⟩
      next hnlt =>
        refine List.pairwise_cons.mpr ⟨fun other hother => ?_, ih hrest hunused⟩
        rcases List.mem_cons.mp ((perm_insertEntry ..).mem_iff.mp hother) with rfl | hother
        · exact lt_of_le_of_ne (not_lt.mp hnlt) hentry
        · exact hfirst other hother

namespace Lists

theorem empty : Lists ({} : Catalog α) key [] := ⟨.refl _, List.Pairwise.nil⟩

theorem mem_entries (hlists : catalog.Lists key items) {entry : String × α} :
    entry ∈ catalog.entries ↔ entry.2 ∈ items ∧ key entry.2 = entry.1 := by
  rw [hlists.perm.mem_iff, List.mem_map]
  constructor
  · rintro ⟨item, hmem, rfl⟩
    exact ⟨hmem, rfl⟩
  · rintro ⟨hmem, hkey⟩
    exact ⟨entry.2, hmem, Prod.ext hkey rfl⟩

/-- An item is added under a key that none of the others has. -/
theorem insert (hlists : catalog.Lists key items) {item : α} (hnew : key item ∉ items.map key) :
    (catalog.insert (key item) item).Lists key (items ++ [item]) where
  perm := by
    rw [List.map_append]
    exact (perm_insertEntry ..).trans
      ((hlists.perm.cons _).trans (List.perm_append_singleton ..).symm)
  ascending := by
    refine pairwise_insertEntry item hlists.ascending fun entry hentry heq => hnew ?_
    obtain ⟨hmem, hkey⟩ := hlists.mem_entries.mp hentry
    exact List.mem_map.mpr ⟨entry.2, hmem, hkey.trans heq⟩

/-- A key leads to the item that has it. -/
theorem get?_eq_some (hlists : catalog.Lists key items) {name : String} {item : α} :
    catalog.get? name = some item ↔ item ∈ items ∧ key item = name := by
  have hmem : (name, item) ∈ catalog.entries ↔ item ∈ items ∧ key item = name :=
    hlists.mem_entries
  rw [← hmem, get?, Option.map_eq_some_iff]
  constructor
  · rintro ⟨⟨found, value⟩, hfind, rfl⟩
    obtain rfl : found = name := by simpa using List.find?_some hfind
    exact List.mem_of_find?_eq_some hfind
  · intro hentry
    obtain ⟨before, after, hentries⟩ := List.append_of_mem hentry
    refine ⟨(name, item), ?_, rfl⟩
    have hascending := hlists.ascending
    rw [hentries, List.pairwise_append] at hascending
    have hbefore : before.find? (·.1 == name) = none := List.find?_eq_none.mpr
      fun entry hother => by
        have hlt := hascending.2.2 entry hother (name, item) List.mem_cons_self
        simpa using hlt.ne
    rw [hentries, List.find?_append, hbefore, Option.none_or]
    exact List.find?_cons_of_pos (beq_self_eq_true name)

theorem contains_iff (hlists : catalog.Lists key items) {name : String} :
    catalog.contains name = true ↔ name ∈ items.map key := by
  rw [contains, Option.isSome_iff_exists, List.mem_map]
  exact exists_congr fun item => hlists.get?_eq_some

theorem values_perm (hlists : catalog.Lists key items) : catalog.values.Perm items := by
  have hperm := hlists.perm.map Prod.snd
  rwa [List.map_map, show Prod.snd ∘ (fun item => (key item, item)) = id from rfl,
    List.map_id] at hperm

theorem values_ascending (hlists : catalog.Lists key items) :
    (catalog.values.map key).Pairwise (· < ·) := by
  rw [values, List.map_map, List.pairwise_map]
  refine hlists.ascending.imp_of_mem fun {first second} hfirst hsecond hlt => ?_
  show key first.2 < key second.2
  rwa [(hlists.mem_entries.mp hfirst).2, (hlists.mem_entries.mp hsecond).2]

end Lists

/-! ## Adding one by one -/

/-- An adding refuses some items, each for a reason that those before it give, and puts
the others under their keys. -/
structure Admits (add : Catalog α → α → Except ε (Catalog α)) (key : α → String)
    (refuses : List α → α → ε → Prop) : Prop where
  refuse : ∀ {catalog : Catalog α} {items item fault}, catalog.Lists key items →
    refuses items item fault → add catalog item = .error fault
  accept : ∀ {catalog : Catalog α} {items item}, catalog.Lists key items →
    (∀ fault, ¬refuses items item fault) →
      add catalog item = .ok (catalog.insert (key item) item) ∧ key item ∉ items.map key

namespace Admits

variable {add : Catalog α → α → Except ε (Catalog α)} {refuses : List α → α → ε → Prop}

theorem foldlM_ok (hadmits : Admits add key refuses)
    (hpasses : Passes (fun before item => ∃ fault, refuses before item fault) items) :
    ∃ catalog, items.foldlM add {} = .ok catalog ∧ catalog.Lists key items := by
  induction items using List.reverseRecOn with
  | nil => exact ⟨{}, rfl, .empty⟩
  | append_singleton items last ih =>
      obtain ⟨hitems, hlast⟩ := Passes.concat_iff.mp hpasses
      obtain ⟨catalog, hfold, hlists⟩ := ih hitems
      obtain ⟨hadd, hnew⟩ := hadmits.accept hlists (not_exists.mp hlast)
      refine ⟨_, ?_, hlists.insert hnew⟩
      rw [List.foldlM_append, hfold]
      show [last].foldlM add catalog = _
      rw [List.foldlM_cons, hadd]
      rfl

theorem foldlM_error (hadmits : Admits add key refuses) {item : α} {fault : ε}
    (hpasses : Passes (fun before item => ∃ fault, refuses before item fault) items)
    (hrefused : refuses items item fault) (after : List α) :
    (items ++ item :: after).foldlM add {} = .error fault := by
  obtain ⟨catalog, hfold, hlists⟩ := hadmits.foldlM_ok hpasses
  rw [List.foldlM_append, hfold]
  show (item :: after).foldlM add catalog = _
  rw [List.foldlM_cons, hadmits.refuse hlists hrefused]
  rfl

end Admits

end Catalog

end PageMarkup
