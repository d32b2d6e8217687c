import PageMarkup.Proofs.Arena.Rewriting
import PageMarkup.Proofs.Note.Ids

/-! # Resolving notes in an arena

What is rewritten note by note is what is rewritten in one pass through the page: the
index of a reference among those to its note is the number of such references before it.
-/

namespace PageMarkup

open NumberedForest Node

namespace Agenda

variable {references : List NumberedTree} {notes : List Note}

theorem lookup_ofNote (note : Note) (index : Nat) {before : List Nat} {id : Nat}
    (hbefore : id ∉ before) (after : List Nat) :
    (ofNote note index (before ++ id :: after)).lookup id =
      some (note, index + before.length) := by
  induction before generalizing index with
  | nil => rw [List.nil_append, ofNote, List.lookup_cons_self]; rfl
  | cons other before ih =>
      rw [List.mem_cons, not_or] at hbefore
      rw [List.cons_append, ofNote, List.lookup_cons, beq_false_of_ne hbefore.1, ih _ hbefore.2,
        List.length_cons, Nat.add_right_comm, Nat.add_assoc]

/-- What a reference becomes, according to its note and to the references before it. -/
theorem answer?_ofNotes (hnodup : (references.map NumberedTree.id).Nodup)
    {earlier later : List NumberedTree} {tree : NumberedTree}
    (hsplit : references = earlier ++ tree :: later) {note : Note}
    (hfind : notes.find? (·.name == tree.erase.noteName) = some note) (data : Node) :
    (ofNotes references notes).answer? tree.id data =
      some (note.referenceTree ((earlier.map (·.erase.noteName)).count note.name) data) := by
  have hearlier : tree.id ∉ earlier.map NumberedTree.id := by
    rw [hsplit, List.map_append, List.map_cons, List.nodup_append] at hnodup
    exact fun hmem => hnodup.2.2 _ hmem _ List.mem_cons_self rfl
  induction notes with
  | nil => cases hfind
  | cons other notes ih =>
      rw [ofNotes, List.flatMap_cons, answer?, List.lookup_append]
      by_cases hname : other.name = tree.erase.noteName
      · rw [List.find?_cons_of_pos (by simpa using hname)] at hfind
        obtain rfl := Option.some.inj hfind
        have hlisted : tree.id ∉ (earlier.filter (·.erase.noteName == other.name)).map
            NumberedTree.id := fun hmem =>
          hearlier ((List.filter_sublist.map _).subset hmem)
        rw [hsplit, List.filter_append, List.filter_cons, if_pos (by simpa using hname.symm),
          List.map_append, List.map_cons, lookup_ofNote other 0 hlisted]
        simp [List.count_eq_length_filter, List.filter_map, Function.comp_def]
      · rw [List.find?_cons_of_neg (by simpa using hname)] at hfind
        have hother : tree.id ∉ (references.filter (·.erase.noteName == other.name)).map
            NumberedTree.id := by
          intro hmem
          obtain ⟨found, hfound, hid⟩ := List.mem_map.mp hmem
          obtain ⟨hlisted, hnamed⟩ := List.mem_filter.mp hfound
          have hmem : tree ∈ references := by simp [hsplit]
          obtain rfl := List.inj_on_of_nodup_map hnodup hlisted hmem hid
          exact hname (by simpa using hnamed : _ = _).symm
        rw [lookup_of_not_mem (by rwa [map_fst_ofNote])]
        exact ih hfind

theorem mem_map_fst_ofNotes {id : Nat} :
    id ∈ (ofNotes references notes).map Prod.fst ↔
      ∃ note ∈ notes, ∃ tree ∈ references, tree.erase.noteName = note.name ∧ tree.id = id := by
  simp only [ofNotes, List.map_flatMap, List.mem_flatMap, map_fst_ofNote, List.mem_map,
    List.mem_filter, beq_iff_eq, and_assoc]

/-- A reference is on the agenda once, since it refers to one note. -/
theorem nodup_map_fst_ofNotes (hnodup : (references.map NumberedTree.id).Nodup)
    (hnames : (notes.map (·.name)).Nodup) :
    ((ofNotes references notes).map Prod.fst).Nodup := by
  induction notes with
  | nil => exact List.nodup_nil
  | cons note notes ih =>
      rw [List.map_cons, List.nodup_cons] at hnames
      rw [ofNotes, List.flatMap_cons, List.map_append, map_fst_ofNote, List.nodup_append]
      refine ⟨hnodup.sublist (List.filter_sublist.map _), ih hnames.2, ?_⟩
      intro id hid other hother heq
      obtain ⟨tree, htree, rfl⟩ := List.mem_map.mp hid
      obtain ⟨hmem, hnamed⟩ := List.mem_filter.mp htree
      obtain ⟨later, hlater, found, hfound, hfoundName, hid⟩ := mem_map_fst_ofNotes.mp hother
      obtain rfl := List.inj_on_of_nodup_map hnodup hfound hmem (hid.trans heq.symm)
      have hsame : later.name = note.name := hfoundName.symm.trans (by simpa using hnamed)
      exact hnames.1 (hsame ▸ List.mem_map_of_mem hlater)

theorem ofNotes_congr {others : List NumberedTree}
    (hsame : ∀ note ∈ notes, references.filter (·.erase.noteName == note.name) =
      others.filter (·.erase.noteName == note.name)) :
    ofNotes references notes = ofNotes others notes := by
  unfold ofNotes
  rw [List.flatMap_def, List.flatMap_def]
  exact congrArg List.flatten (List.map_congr_left fun note hmem => by rw [hsame note hmem])

end Agenda

namespace Arena

variable {arena : Arena} {gone : List Kind} {forest : NumberedForest} {notes : List Note}

theorem Holds.nodup_references (hholds : Holds arena forest) :
    (forest.references.map NumberedTree.id).Nodup :=
  hholds.nodup.sublist (map_id_references_sublist forest)

theorem Holds.pending (hholds : Holds arena forest) (hsound : forest.erase.Obeys (Sound gone))
    (hnames : (notes.map (·.name)).Nodup) :
    Pending (Agenda.ofNotes forest.references notes) forest where
  flat := flat_of_sound hsound
  nodup := Agenda.nodup_map_fst_ofNotes hholds.nodup_references hnames
  placed entry hentry := by
    obtain ⟨-, -, tree, hmem, -, hid⟩ := Agenda.mem_map_fst_ofNotes.mp (List.mem_map_of_mem hentry)
    exact ⟨tree, hmem, hid⟩

/-- Rewriting the references note by note rewrites the forest in the arena. -/
theorem Holds.rewriteNotes (hholds : Holds arena forest)
    (hsound : forest.erase.Obeys (Sound gone)) (hnames : (notes.map (·.name)).Nodup)
    (hcovers : Note.Covers notes forest.erase.references) {references : List NumberedTree}
    (hsame : ∀ note ∈ notes, references.filter (·.erase.noteName == note.name) =
      forest.references.filter (·.erase.noteName == note.name)) :
    ∃ next rewritten, arena.rewriteNotes (listed references) notes = .ok next ∧
      NumberedForest.erase rewritten = (Tree.forestRewriteNoteRefs notes [] forest.erase).1 ∧
      Holds next rewritten := by
  have hpending := hholds.pending hsound hnames
  rw [← Agenda.ofNotes_congr hsame] at hpending
  obtain ⟨next, rewritten, hnext, hrewritten, herase⟩ := hpending.rewriteNotes notes hholds
  refine ⟨next, rewritten, hnext, ?_, hrewritten⟩
  rw [herase, Agenda.ofNotes_congr hsame, forestRewriteNoteRefs_erase hsound hcovers]
  · intro earlier tree later hsplit note hfind data
    rw [List.append_nil, List.count_reverse]
    exact Agenda.answer?_ofNotes hholds.nodup_references hsplit hfind data
  · -- A number on the agenda is that of a reference, and numbers belong to one node.
    intro id hplain data
    refine Agenda.answer?_of_not_mem (fun hmem => ?_) data
    obtain ⟨-, -, tree, htree, -, rfl⟩ := Agenda.mem_map_fst_ofNotes.mp hmem
    have hnodup := (perm_plainIds forest).nodup_iff.mp hholds.nodup
    rw [List.nodup_append] at hnodup
    exact hnodup.2.2 _ hplain _ (List.mem_map_of_mem htree) rfl

theorem ofKind_noteRef (forest : NumberedForest) :
    forest.ofKind (.aggregate (.bracket .noteRef)) = forest.references.map NumberedTree.id := by
  induction forest using NumberedForest.induction with
  | nil => simp [references]
  | cons id data children rest ihchildren ihrest =>
      rw [ofKind_cons, references_cons, List.map_append, List.map_append, ihchildren, ihrest]
      by_cases hkind : data.kind = .aggregate (.bracket .noteRef) <;>
        simp [Tree.isNoteRef, Tree.kind, hkind]

/-- The references of a page are listed with their names. -/
theorem Holds.mapM_noteName (hholds : Holds arena forest) :
    (forest.references.map NumberedTree.id).mapM
        (fun id => do return (← arena.noteName id, id)) = .ok (listed forest.references) := by
  have hname : ∀ tree ∈ forest.references,
      (do return (← arena.noteName tree.id, tree.id)) = Except.ok (tree.erase.noteName, tree.id) := by
    intro tree hmem
    obtain ⟨place, before, after, rfl, -⟩ := exists_plug_reference hmem
    rw [noteName, hholds.below.textContent]
    rfl
  rw [List.mapM_map]
  exact mapM_ok hname

/-- Resolving the notes of an arena resolves those of the forest in it. -/
theorem Holds.resolveNotes (hholds : Holds arena forest) (hparagraph : .paragraph ∉ gone)
    (hsound : forest.erase.Obeys (Sound gone)) (definitions : List Directive) :
    ∃ next kept, arena.resolveNotes definitions =
        .ok (next, (Note.resolve definitions forest.erase).2) ∧
      NumberedForest.erase kept = (Note.resolve definitions forest.erase).1 ∧ Holds next kept := by
  have hnames : (listed forest.references).map (·.1) = Note.referenceNames forest.erase := by
    rw [Forest.referenceNames_eq, ← map_erase_references, listed, List.map_map, List.map_map]
    rfl
  rw [Arena.resolveNotes, hholds.descendants, ok_bind, hholds.ofKind (by decide), ok_bind,
    ofKind_noteRef, hholds.mapM_noteName, ok_bind]
  have hundefined := Note.filter_not_selected definitions forest.erase
  have hcollect := Note.collect_selectDefinitions definitions forest.erase
  obtain ⟨dropped, kept, hdrop, hkept, hreferences, hkeptSound, hdropped⟩ :=
    hholds.dropUndefined hparagraph ((Note.names forest.erase).filter fun name =>
      !definitions.any (·.subname == name)) ((Note.nodup_eraseDups _).filter _) hsound
      fun _ _ => rfl
  have heraseDups : (Note.referenceNames forest.erase).eraseDups = Note.names forest.erase := rfl
  simp only [hnames, Note.resolve, heraseDups]
  rw [hundefined, hdrop, ok_bind, hcollect]
  split
  next => exact ⟨dropped, kept, rfl, hkept, hdropped⟩
  next =>
    -- What is left are the references that can be resolved, and so each of them has its note.
    have hcovers : Note.Covers (Note.collect (Note.referenceNames forest.erase) definitions
        (Note.names forest.erase)) kept.erase.references := by
      intro reference hmem
      rw [← map_erase_references, hreferences] at hmem
      obtain ⟨tree, htree, rfl⟩ := List.mem_map.mp hmem
      obtain ⟨hlisted, hkeep⟩ := List.mem_filter.mp htree
      have herased : tree.erase ∈ forest.erase.references := by
        rw [← map_erase_references]
        exact List.mem_map_of_mem hlisted
      have hname := Note.mem_names.mpr ⟨_, herased, rfl⟩
      exact Note.covers_resolvable definitions forest.erase _
        (List.mem_filter.mpr ⟨herased, by simpa [hname] using hkeep⟩)
    have hsame : ∀ note ∈ Note.collect (Note.referenceNames forest.erase) definitions
        (Note.names forest.erase), forest.references.filter (·.erase.noteName == note.name) =
          kept.references.filter (·.erase.noteName == note.name) := by
      intro note hmem
      have hdefined := Note.any_of_mem_collect hmem
      rw [hreferences, List.filter_filter]
      refine List.filter_congr fun tree _ => ?_
      by_cases hname : tree.erase.noteName = note.name
      · simp [hname, hdefined]
      · simp [hname]
    obtain ⟨rewritten, written, hrewrite, hwritten, hrewritten⟩ :=
      hdropped.rewriteNotes hkeptSound Note.nodup_map_name hcovers hsame
    have htop : Stores rewritten (Place.plug [top] written) := hrewritten
    obtain ⟨next, added, hgraft, hadded, hnext⟩ := htop.graft (Note.sectionOf
      (Note.collect (Note.referenceNames forest.erase) definitions (Note.names forest.erase)))
    refine ⟨next, written ++ added, ?_, ?_, hnext⟩
    · have hgraft : rewritten.graft root _ = .ok next := hgraft
      simp only [hrewrite, ok_bind, hgraft]
      rfl
    · rw [erase_append, hwritten, hadded, hkept]

end Arena

end PageMarkup
