import PageMarkup.Arena.Rewriting
import PageMarkup.Proofs.Arena.Moving

/-! # Visiting the nodes of an arena

Passes that take out nodes or put others in their place go over numbers that were read
before the first change. What has been visited is behind the node whose turn it is, so
its number still belongs to it: a node is removed together with what is below it only,
and all of that was visited before or is never visited.
-/

namespace PageMarkup

open NumberedForest

namespace Arena

variable {α : Type} {arena middle next : Arena} {frame : Frame} {place : Place}
  {before after siblings : NumberedForest} {tree : NumberedTree}

section Visit

variable {act : Arena → Nat → Except ArenaFault (Arena × List α)} {found more : List α}

@[simp]
theorem visit_nil : arena.visit act [] = .ok (arena, []) := by
  rw [visit]
  rfl

theorem visit_append {first second : List Nat} (hfirst : arena.visit act first = .ok (middle, found))
    (hsecond : middle.visit act second = .ok (next, more)) :
    arena.visit act (first ++ second) = .ok (next, found ++ more) := by
  induction first generalizing arena found with
  | nil =>
      cases visit_nil.symm.trans hfirst
      exact hsecond
  | cons id ids ih =>
      rw [visit] at hfirst
      rw [List.cons_append, visit]
      cases hact : act arena id with
      | error fault =>
          rw [hact] at hfirst
          cases hfirst
      | ok answer =>
          rw [hact, ok_bind] at hfirst
          cases hrest : visit act answer.1 ids with
          | error fault =>
              simp only [hrest] at hfirst
              cases hfirst
          | ok visited =>
              simp only [hrest, ok_bind, pure_eq_ok] at hfirst
              cases hfirst
              simp [ih hrest]

theorem visit_singleton {id : Nat} (hact : act arena id = .ok (next, found)) :
    arena.visit act [id] = .ok (next, found) := by
  simp [visit, hact]

theorem visit_of_forall {ids : List Nat} (hact : ∀ id ∈ ids, act arena id = .ok (arena, [])) :
    arena.visit act ids = .ok (arena, []) := by
  induction ids with
  | nil => exact visit_nil
  | cons id ids ih =>
      obtain ⟨hid, hids⟩ := List.forall_mem_cons.mp hact
      exact visit_append (visit_singleton hid) (ih hids)

end Visit

theorem Holds.atRoot {forest : NumberedForest} (hholds : Holds arena forest) :
    Stores arena (Place.plug []
      ([] ++ NumberedTree.node root { kind := .documentRoot } forest :: [])) := hholds

theorem Holds.belowRoot {forest : NumberedForest} (hholds : Holds arena forest) :
    Stores arena (Place.plug [top] ([] ++ forest ++ [])) := by
  rwa [List.nil_append, List.append_nil]

theorem Holds.below {siblings : NumberedForest} (hholds : Holds arena (place.plug siblings)) :
    Stores arena (Place.plug (place ++ [top]) siblings) := by
  rwa [Place.plug_append]

/-- The nodes of a document have numbers of their own. -/
theorem Holds.nodup {forest : NumberedForest} (hholds : Holds arena forest) : forest.ids.Nodup :=
  (List.nodup_append.mp ((Place.ids_plug [top] forest).nodup_iff.mp hholds.distinct)).1

/-- The trees of a document are below the root. -/
theorem Holds.descendants {forest : NumberedForest} (hholds : Holds arena forest) :
    arena.descendants root = .ok (root :: forest.ids) := by
  simpa using hholds.atRoot.descendants

/-! ## Directives -/

variable (source : Source)

/-- Lifting a node asks whether the tree there is a directive. -/
theorem Stores.liftDirective_eq
    (hstores : Stores arena (Place.plug place (before ++ tree :: after))) :
    arena.liftDirective source tree.id =
      match Directive.ofTree? source tree.erase with
      | some directive => arena.remove tree.id >>= fun arena => .ok (arena, [directive])
      | none => .ok (arena, []) := by
  obtain ⟨cell, hcell, hdata, -, -⟩ := hstores.exists_get
  have hkind : tree.erase.kind = tree.data.kind := rfl
  rw [Arena.liftDirective, hcell, ok_bind, hdata, hstores.textContent, Directive.ofTree?, hkind,
    NumberedTree.data_erase]
  split
  next =>
    cases tree.data.opener with
    | none => rfl
    | some opener => cases hopening : Directive.parseOpening? (source.slice opener) <;> simp [hopening]
  next => rfl

/-- The children of a node that are directives are removed, and the directives are told. -/
theorem Stores.visit_liftDirective
    (hstores : Stores arena (Place.plug (frame :: place) (before ++ siblings))) :
    ∃ next kept, arena.visit (Arena.liftDirective source) (siblings.map NumberedTree.id) =
        .ok (next, Directive.ofForest source siblings.erase) ∧
      NumberedForest.erase kept = Directive.body source siblings.erase ∧
      Stores next (Place.plug (frame :: place) (before ++ kept)) := by
  induction siblings generalizing arena before with
  | nil =>
      rw [erase_nil]
      exact ⟨arena, [], visit_nil, erase_nil, hstores⟩
  | cons tree rest ih =>
      have hlift := hstores.liftDirective_eq source
      rw [erase_cons_eq, Directive.ofForest, Directive.body, List.map_cons,
        ← List.singleton_append]
      cases hdirective : Directive.ofTree? source tree.erase with
      | some directive =>
          obtain ⟨removed, hremove, hstores⟩ := hstores.remove
          obtain ⟨next, kept, hvisit, herase, hstores⟩ := ih hstores
          simp only [hdirective, hremove, ok_bind] at hlift
          refine ⟨next, kept, ?_, ?_, hstores⟩
          · rw [visit_append (visit_singleton hlift) hvisit, List.filterMap_cons_some hdirective]
            rfl
          · rw [herase, List.filter_cons_of_neg (by simp [hdirective])]
            rfl
      | none =>
          simp only [hdirective] at hlift
          rw [List.append_cons] at hstores
          obtain ⟨next, kept, hvisit, herase, hstores⟩ := ih hstores
          refine ⟨next, tree :: kept, ?_, ?_, by simpa using hstores⟩
          · rw [visit_append (visit_singleton hlift) hvisit, List.filterMap_cons_none hdirective]
            rfl
          · rw [erase_cons_eq, herase, List.filter_cons_of_pos (by simp [hdirective])]
            rfl

/-- Lifting the directives of an arena lifts those of the forest in it. -/
theorem Holds.liftDirectives {forest : NumberedForest} (hholds : Holds arena forest) :
    ∃ next kept, arena.liftDirectives source =
        .ok (next, Directive.ofForest source forest.erase) ∧
      NumberedForest.erase kept = Directive.body source forest.erase ∧ Holds next kept := by
  have hbelow : Stores arena (Place.plug [top] ([] ++ forest)) := hholds
  have hchildren : arena.children root = .ok (forest.map NumberedTree.id) := Stores.children hholds
  obtain ⟨next, kept, hvisit, herase, hstores⟩ := hbelow.visit_liftDirective source
  exact ⟨next, kept, by rw [Arena.liftDirectives, hchildren, ok_bind, hvisit], herase, hstores⟩

end Arena

end PageMarkup
