import PageMarkup.Proofs.Arena.Noting
import PageMarkup.Proofs.Note.Resolution

/-! # Rewriting references in an arena

References are rewritten note by note, in the order in which the notes were first referred
to, and not in document order. What is still to be rewritten is a table from numbers to
notes; with every step the table loses an entry and the forest that the table leads to
stays the same.
-/

namespace PageMarkup

open NumberedForest Node

/-- The references that are still to be rewritten: their numbers, each with the note it
refers to and its index among the references to that note. -/
abbrev Agenda := List (Nat × Note × Nat)

namespace Agenda

/-- The references to a note, the first of which has an index. -/
def ofNote (note : Note) (index : Nat) : List Nat → Agenda
  | [] => []
  | id :: ids => (id, note, index) :: ofNote note (index + 1) ids

/-- The references to all of the notes, note by note. -/
def ofNotes (references : List NumberedTree) (notes : List Note) : Agenda :=
  notes.flatMap fun note =>
    ofNote note 0 ((references.filter (·.erase.noteName == note.name)).map NumberedTree.id)

/-- What a node becomes, if it is on the agenda. -/
def answer? (agenda : Agenda) (id : Nat) (data : Node) : Option Tree :=
  (agenda.lookup id).map fun entry => entry.1.referenceTree entry.2 data

theorem map_fst_ofNote (note : Note) (index : Nat) (ids : List Nat) :
    (ofNote note index ids).map Prod.fst = ids := by
  induction ids generalizing index with
  | nil => rfl
  | cons id ids ih => rw [ofNote, List.map_cons, ih]

theorem lookup_of_not_mem {agenda : Agenda} {id : Nat} (hnot : id ∉ agenda.map Prod.fst) :
    agenda.lookup id = none := by
  rw [List.lookup_eq_none_iff]
  intro entry hmem
  have hne : id ≠ entry.1 := fun heq => hnot (heq ▸ List.mem_map_of_mem hmem)
  simpa using hne

theorem answer?_of_not_mem {agenda : Agenda} {id : Nat} (hnot : id ∉ agenda.map Prod.fst)
    (data : Node) : agenda.answer? id data = none := by
  rw [answer?, lookup_of_not_mem hnot]
  rfl

theorem answer?_cons_of_ne {agenda : Agenda} {entry : Nat × Note × Nat} {id : Nat}
    (hne : id ≠ entry.1) (data : Node) :
    answer? (entry :: agenda) id data = agenda.answer? id data := by
  obtain ⟨other, note, index⟩ := entry
  rw [answer?, answer?, List.lookup_cons, beq_false_of_ne hne]

theorem answer?_cons_self (id : Nat) (note : Note) (index : Nat) (agenda : Agenda) (data : Node) :
    answer? ((id, note, index) :: agenda) id data = some (note.referenceTree index data) := by
  rw [answer?, List.lookup_cons_self]
  rfl

end Agenda

namespace NumberedForest

/-- The forest with the nodes replaced for which there is an answer. -/
def replace (answer? : Nat → Node → Option Tree) : NumberedForest → Forest
  | [] => []
  | .node id data children :: rest =>
    (answer? id data).getD (.node data (replace answer? children)) :: replace answer? rest

variable {answer? other? : Nat → Node → Option Tree}

@[simp]
theorem replace_nil : replace answer? [] = [] := by rw [replace]

theorem replace_cons (id : Nat) (data : Node) (children rest : NumberedForest) :
    replace answer? (.node id data children :: rest) =
      (answer? id data).getD (.node data (replace answer? children)) ::
        replace answer? rest := by rw [replace]

@[simp]
theorem replace_append (first second : NumberedForest) :
    replace answer? (first ++ second) = replace answer? first ++ replace answer? second := by
  induction first with
  | nil => simp
  | cons tree rest ih =>
      obtain ⟨id, data, children⟩ := tree
      rw [List.cons_append, replace_cons, replace_cons, ih, List.cons_append]

theorem replace_congr {forest : NumberedForest}
    (hsame : ∀ id ∈ forest.ids, ∀ data, answer? id data = other? id data) :
    replace answer? forest = replace other? forest := by
  induction forest using NumberedForest.induction with
  | nil => simp
  | cons id data children rest ihchildren ihrest =>
      simp only [ids_cons, List.mem_cons, List.mem_append] at hsame
      rw [replace_cons, replace_cons, hsame id (.inl rfl),
        ihchildren fun other hmem => hsame other (.inr (.inl hmem)),
        ihrest fun other hmem => hsame other (.inr (.inr hmem))]

/-- Without answers nothing is replaced. -/
theorem replace_eq_erase {forest : NumberedForest}
    (hnone : ∀ id ∈ forest.ids, ∀ data, answer? id data = none) :
    replace answer? forest = forest.erase := by
  induction forest using NumberedForest.induction with
  | nil => simp
  | cons id data children rest ihchildren ihrest =>
      simp only [ids_cons, List.mem_cons, List.mem_append] at hnone
      rw [replace_cons, hnone id (.inl rfl),
        ihchildren fun other hmem => hnone other (.inr (.inl hmem)),
        ihrest fun other hmem => hnone other (.inr (.inr hmem)), erase_cons]
      rfl

/-- Siblings that become the same make no difference around them. -/
theorem replace_plug {place : Place} {siblings others : NumberedForest}
    (hsame : ∀ id ∈ place.ids, ∀ data, answer? id data = other? id data)
    (hsiblings : replace answer? siblings = replace other? others) :
    replace answer? (place.plug siblings) = replace other? (place.plug others) := by
  induction place generalizing siblings others with
  | nil => exact hsiblings
  | cons frame place ih =>
      simp only [Place.ids, List.mem_cons, List.mem_append] at hsame
      rw [Place.plug_cons, Place.plug_cons]
      refine ih (fun id hmem => hsame id (.inr (.inr hmem))) ?_
      rw [replace_append, replace_append, replace_cons, replace_cons,
        replace_congr fun id hmem => hsame id (.inr (.inl (.inl hmem))), hsame frame.id (.inl rfl),
        hsiblings, replace_congr fun id hmem => hsame id (.inr (.inl (.inr hmem)))]

end NumberedForest

/-! ## In document order -/

namespace NumberedForest

/-- The numbers of the nodes that are no references. -/
def plainIds (forest : NumberedForest) : List Nat :=
  forest.census fun tree => if tree.erase.isNoteRef then [] else [tree.id]

theorem plainIds_cons (id : Nat) (data : Node) (children rest : NumberedForest) :
    plainIds (.node id data children :: rest) =
      (if (NumberedTree.node id data children).erase.isNoteRef then [] else [id]) ++
        (plainIds children ++ plainIds rest) := census_cons ..

/-- A node is a reference or it is none. -/
theorem perm_plainIds (forest : NumberedForest) :
    forest.ids.Perm (forest.plainIds ++ forest.references.map NumberedTree.id) := by
  induction forest using NumberedForest.induction with
  | nil => simp [plainIds, references]
  | cons id data children rest ihchildren ihrest =>
      rw [List.perm_iff_count] at ihchildren ihrest ⊢
      intro other
      have hchildren := ihchildren other
      have hrest := ihrest other
      rw [ids_cons, plainIds_cons, references_cons]
      by_cases href : (NumberedTree.node id data children).erase.isNoteRef = true
      · rw [if_pos href, if_pos href]
        simp only [List.map_append, List.map_cons, List.map_nil, List.count_append,
          List.count_cons, List.count_nil, NumberedTree.id_node] at hchildren hrest ⊢
        omega
      · rw [if_neg href, if_neg href]
        simp only [List.map_append, List.map_nil, List.count_append, List.count_cons,
          List.count_nil] at hchildren hrest ⊢
        omega

/-- The answers to some references in document order, after those to the notes in `seen`: what the
note of each makes of it, given how often the note was referred to before. -/
def Answering (answer? : Nat → Node → Option Tree) (notes : List Note) (seen : List String)
    (references : List NumberedTree) : Prop :=
  ∀ earlier tree later, references = earlier ++ tree :: later →
    ∀ note, notes.find? (·.name == tree.erase.noteName) = some note → ∀ data,
      answer? tree.id data = some (note.referenceTree
        (((earlier.map (·.erase.noteName)).reverse ++ seen).count note.name) data)

namespace Answering

variable {notes : List Note} {seen : List String} {first last : List NumberedTree}

theorem left (hanswer : Answering answer? notes seen (first ++ last)) :
    Answering answer? notes seen first := by
  intro earlier tree later hsplit
  exact hanswer earlier tree (later ++ last) (by rw [hsplit, List.append_assoc, List.cons_append])

theorem right (hanswer : Answering answer? notes seen (first ++ last)) :
    Answering answer? notes ((first.map (·.erase.noteName)).reverse ++ seen) last := by
  intro earlier tree later hsplit note hnote data
  have hlater := hanswer (first ++ earlier) tree later (by rw [hsplit, List.append_assoc])
    note hnote data
  rwa [List.map_append, List.reverse_append, List.append_assoc] at hlater

end Answering

/-- Rewriting a page in one pass replaces every reference by what its note and the
references before it make of it. -/
theorem forestRewriteNoteRefs_erase {gone : List Kind} {answer? : Nat → Node → Option Tree}
    {notes : List Note} {forest : NumberedForest} (hsound : forest.erase.Obeys (Sound gone))
    (hcovers : Note.Covers notes forest.erase.references) (seen : List String)
    (hanswer : Answering answer? notes seen forest.references)
    (hnone : ∀ id ∈ forest.plainIds, ∀ data, answer? id data = none) :
    Tree.forestRewriteNoteRefs notes seen forest.erase =
      (replace answer? forest, (forest.references.map (·.erase.noteName)).reverse ++ seen) := by
  induction forest using NumberedForest.induction generalizing seen with
  | nil => simp [Tree.forestRewriteNoteRefs, references]
  | cons id data children rest ihchildren ihrest =>
      have hnode : (NumberedTree.node id data children).erase = .node data children.erase := rfl
      rw [erase_cons, Forest.obeys_cons] at hsound
      rw [references_cons, hnode] at hanswer ⊢
      rw [plainIds_cons, hnode] at hnone
      rw [← map_erase_references, references_cons, hnode] at hcovers
      rw [erase_cons, Tree.forestRewriteNoteRefs, Tree.rewriteNoteRefs, replace_cons]
      dsimp only
      by_cases href : (Tree.node data children.erase).isNoteRef = true
      · have hbelow : references children = [] := by
          rw [← List.map_eq_nil_iff, map_erase_references]
          exact Forest.references_children hsound.1 href
        simp only [if_pos href, hbelow, List.nil_append] at hanswer hcovers hnone ⊢
        rw [List.singleton_append, List.map_cons] at hcovers
        obtain ⟨note, -, hfind, hname⟩ := Note.find?_of_covers hcovers
        rw [hnode] at hfind hname
        have hself := hanswer [] _ _ rfl note hfind data
        rw [NumberedTree.id_node] at hself
        rw [hfind, hself]
        dsimp only
        rw [ihrest hsound.2 ?_ (note.name :: seen) ?_ fun other hmem =>
          hnone other (List.mem_append_right _ hmem)]
        · simp [hname, hnode]
        · rw [← map_erase_references]
          exact fun other hmem => hcovers other (List.mem_cons_of_mem _ hmem)
        · rw [hname]
          exact hanswer.right
      · simp only [if_neg href, List.nil_append] at hanswer hcovers hnone ⊢
        rw [List.map_append] at hcovers
        rw [ihchildren hsound.1.children ?_ seen hanswer.left fun other hmem =>
          hnone other (List.mem_append_right _ (List.mem_append_left _ hmem))]
        · dsimp only
          rw [ihrest hsound.2 ?_ _ hanswer.right fun other hmem =>
            hnone other (List.mem_append_right _ (List.mem_append_right _ hmem)),
            hnone id List.mem_cons_self, Option.getD_none]
          · simp
          · rw [← map_erase_references]
            exact fun other hmem => hcovers other (List.mem_append_right _ hmem)
        · rw [← map_erase_references]
          exact fun other hmem => hcovers other (List.mem_append_left _ hmem)

end NumberedForest

namespace Arena

variable {arena : Arena} {agenda : Agenda} {forest : NumberedForest}

/-- The agenda lists references of the forest, each of them once, and no reference of the
forest is below another. -/
structure Pending (agenda : Agenda) (forest : NumberedForest) : Prop where
  flat : forest.Flat
  nodup : (agenda.map Prod.fst).Nodup
  placed : ∀ entry ∈ agenda, ∃ tree ∈ forest.references, tree.id = entry.1

/-- A node that has become what the agenda says of it leaves the agenda. What else is on the agenda
stands around the node. -/
theorem replace_answered {place : Place} {before after : NumberedForest}
    {tree added : NumberedTree} {note : Note} {index : Nat}
    (hadded : added.erase = note.referenceTree index tree.data)
    (hbefore : (place.plug (before ++ tree :: after)).ids.Nodup)
    (hafter : (place.plug (before ++ added :: after)).ids.Nodup)
    (hplaced : ∀ entry ∈ agenda, entry.1 ∈ (place.plug (before ++ after)).ids) :
    replace agenda.answer? (place.plug (before ++ added :: after)) =
      replace (Agenda.answer? ((tree.id, note, index) :: agenda))
        (place.plug (before ++ tree :: after)) := by
  rw [(Place.ids_plug_middle ..).nodup_iff, ← List.singleton_append, ids_append,
    List.nodup_append] at hbefore hafter
  have hsame : ∀ other ∈ (place.plug (before ++ after)).ids, ∀ data,
      agenda.answer? other data =
        Agenda.answer? ((tree.id, note, index) :: agenda) other data := by
    intro other hother data
    refine (Agenda.answer?_cons_of_ne ?_ data).symm
    rintro rfl
    exact hbefore.2.2 tree.id (by simp [ids_cons_eq]) tree.id hother rfl
  have haround : ∀ other, other ∈ before.ids ∨ other ∈ after.ids ∨ other ∈ place.ids →
      other ∈ (place.plug (before ++ after)).ids := by
    intro other hother
    rw [(Place.ids_plug ..).mem_iff, ids_append, List.mem_append, List.mem_append]
    tauto
  have hself : replace agenda.answer? [added] =
      replace (Agenda.answer? ((tree.id, note, index) :: agenda)) [tree] := by
    obtain ⟨id, data, children⟩ := tree
    rw [replace_eq_erase fun other hother data => Agenda.answer?_of_not_mem ?_ data, erase_cons_eq,
      hadded, erase_nil, replace_cons, replace_nil, NumberedTree.id_node, Agenda.answer?_cons_self]
    · rfl
    · intro hlisted
      obtain ⟨entry, hentry, rfl⟩ := List.mem_map.mp hlisted
      exact hafter.2.2 _ hother _ (hplaced entry hentry) rfl
  refine replace_plug (fun other hother => hsame other (haround other (.inr (.inr hother)))) ?_
  rw [← List.singleton_append, ← List.singleton_append (x := tree)]
  simp only [replace_append]
  rw [hself, replace_congr fun other hother => hsame other (haround other (.inl hother)),
    replace_congr fun other hother => hsame other (haround other (.inr (.inl hother)))]

/-- Rewriting the first reference of an agenda takes it from the agenda. -/
theorem Pending.step {id index : Nat} {note : Note}
    (hpending : Pending ((id, note, index) :: agenda) forest) (hholds : Holds arena forest) :
    ∃ cell next rewritten, arena.get id = .ok cell ∧
      arena.overwrite id (note.referenceTree index cell.data) = .ok next ∧
      Holds next rewritten ∧ Pending agenda rewritten ∧
      replace agenda.answer? rewritten =
        replace (Agenda.answer? ((id, note, index) :: agenda)) forest := by
  obtain ⟨tree, hmem, hid⟩ := hpending.placed _ List.mem_cons_self
  obtain rfl : tree.id = id := hid
  obtain ⟨place, before, after, earlier, later, rfl, href, hreferences, haround, -, -, -, -⟩ :=
    exists_reference hpending.flat hmem
  obtain ⟨cell, hcell, hdata, -, -⟩ := hholds.below.exists_get
  obtain ⟨next, added, hnext, hadded, herase, hstores⟩ :=
    hholds.below.overwrite (note.referenceTree index cell.data)
  have hrewritten : Holds next (place.plug (before ++ added :: after)) := by
    rwa [Place.plug_append] at hstores
  have hnone : references [added] = [] := by
    rw [← List.map_eq_nil_iff, map_erase_references, erase_cons_eq, herase, erase_nil]
    exact (Note.references_referenceTree ..).trans Forest.matching_nil
  have hleft : references (place.plug (before ++ added :: after)) = earlier ++ later := by
    have hadded := haround [added]
    rwa [hnone, List.append_nil, List.append_assoc] at hadded
  obtain ⟨hnot, hnodup⟩ := List.nodup_cons.mp hpending.nodup
  have hlisted : ∀ entry ∈ agenda, ∃ other ∈ earlier ++ later, other.id = entry.1 := by
    intro entry hentry
    obtain ⟨other, hother, hid⟩ := hpending.placed entry (List.mem_cons_of_mem _ hentry)
    rw [hreferences, List.mem_append, List.mem_cons] at hother
    rcases hother with hother | rfl | hother
    · exact ⟨other, List.mem_append_left _ hother, hid⟩
    · exact absurd (List.mem_map_of_mem hentry) (hid ▸ hnot)
    · exact ⟨other, List.mem_append_right _ hother, hid⟩
  refine ⟨cell, next, _, hcell, hnext, hrewritten, ⟨fun other hother => ?_, hnodup, ?_⟩, ?_⟩
  · rw [hleft] at hother
    refine hpending.flat other ?_
    rw [hreferences]
    exact (List.sublist_cons_self _ _).append_left _ |>.subset hother
  · rw [hleft]
    exact hlisted
  · have hbeside : references (place.plug (before ++ after)) = earlier ++ later := by
      have hempty := haround []
      simpa [references] using hempty
    refine replace_answered (hdata ▸ herase) hholds.nodup hrewritten.nodup ?_
    intro entry hentry
    obtain ⟨other, hother, hid⟩ := hlisted entry hentry
    rw [← hbeside] at hother
    exact (map_id_references_sublist _).subset (hid ▸ List.mem_map_of_mem hother)

/-- Rewriting the references to a note takes them from the agenda. -/
theorem Pending.rewriteReferences (note : Note) (ids : List Nat) (index : Nat)
    (hpending : Pending (Agenda.ofNote note index ids ++ agenda) forest)
    (hholds : Holds arena forest) :
    ∃ next rewritten, arena.rewriteReferences note index ids = .ok next ∧ Holds next rewritten ∧
      Pending agenda rewritten ∧ replace agenda.answer? rewritten =
        replace (Agenda.answer? (Agenda.ofNote note index ids ++ agenda)) forest := by
  induction ids generalizing arena forest index with
  | nil => exact ⟨arena, forest, rfl, hholds, hpending, rfl⟩
  | cons id ids ih =>
      obtain ⟨cell, stepped, middle, hcell, hstep, hmiddle, hpending', hsame⟩ :=
        hpending.step hholds
      obtain ⟨next, rewritten, hnext, hrewritten, hleft, hsame'⟩ := ih (index + 1) hpending' hmiddle
      refine ⟨next, rewritten, ?_, hrewritten, hleft, hsame'.trans hsame⟩
      rw [Arena.rewriteReferences, hcell, ok_bind, hstep, ok_bind, hnext]

/-- Rewriting note by note does all that is on the agenda. -/
theorem Pending.rewriteNotes {references : List NumberedTree} (notes : List Note)
    (hpending : Pending (Agenda.ofNotes references notes) forest) (hholds : Holds arena forest) :
    ∃ next rewritten, arena.rewriteNotes (listed references) notes = .ok next ∧
      Holds next rewritten ∧
      rewritten.erase = replace (Agenda.answer? (Agenda.ofNotes references notes)) forest := by
  induction notes generalizing arena forest with
  | nil => exact ⟨arena, forest, rfl, hholds, (replace_eq_erase fun _ _ _ => rfl).symm⟩
  | cons note notes ih =>
      obtain ⟨middle, between, hmiddle, hbetween, hpending', hsame⟩ :=
        Pending.rewriteReferences note _ 0 hpending hholds
      obtain ⟨next, rewritten, hnext, hrewritten, hsame'⟩ := ih hpending' hbetween
      refine ⟨next, rewritten, ?_, hrewritten, hsame'.trans hsame⟩
      rw [Arena.rewriteNotes]
      simp only [filter_listed, hmiddle, ok_bind, hnext]

end Arena

end PageMarkup
