import PageMarkup.Proofs.Note.References

/-! # Rewriting references

Rewriting passes a page once and keeps the names passed so far. It turns every reference
into a raised link and nothing else, so the raised parts of the result are the references
in document order, each with the number of earlier references to the same note.
-/

namespace PageMarkup

open Node

/-- Whether the tree is a raised part of a page. -/
def Tree.isSuperscript (tree : Tree) : Bool := tree.data.element.any (·.tag == "sup")

/-- The raised parts of a forest, in document order. -/
abbrev Forest.superscripts (forest : Forest) : Forest := forest.matching Tree.isSuperscript

namespace Note

/-- What references become, one after the other. `seen` holds the names passed so far. -/
def rewritten (notes : List Note) (seen : List String) : List Tree → List Tree
  | [] => []
  | reference :: rest =>
    match notes.find? (·.name == reference.noteName) with
    | some note =>
      note.referenceTree (seen.count note.name) reference.data
        :: rewritten notes (note.name :: seen) rest
    | none => rewritten notes seen rest

/-- Every reference has a note. -/
def Covers (notes : List Note) (references : List Tree) : Prop :=
  ∀ reference ∈ references, ∃ note ∈ notes, note.name = reference.noteName

theorem find?_of_covers {notes : List Note} {reference : Tree} {rest : List Tree}
    (hcovers : Covers notes (reference :: rest)) :
    ∃ note ∈ notes, notes.find? (·.name == reference.noteName) = some note ∧
      note.name = reference.noteName := by
  obtain ⟨note, hmem, hname⟩ := hcovers reference List.mem_cons_self
  cases hfind : notes.find? (·.name == reference.noteName) with
  | none =>
      have hnone := List.find?_eq_none.mp hfind note hmem
      simp [hname] at hnone
  | some found =>
      exact ⟨found, List.mem_of_find?_eq_some hfind, rfl, by simpa using List.find?_some hfind⟩

theorem rewritten_append {notes : List Note} (seen : List String) {first : List Tree}
    (hcovers : Covers notes first) (second : List Tree) :
    rewritten notes seen (first ++ second) =
      rewritten notes seen first ++
        rewritten notes ((first.map Tree.noteName).reverse ++ seen) second := by
  induction first generalizing seen with
  | nil => rfl
  | cons reference rest ih =>
      obtain ⟨note, -, hfind, hname⟩ := find?_of_covers hcovers
      have hrest : Covers notes rest := fun other hmem => hcovers other (List.mem_cons_of_mem _ hmem)
      rw [List.cons_append, rewritten, rewritten, hfind]
      simp [ih _ hrest, hname]

/-- The reference at a position becomes a link to its note, numbered by the references to
that note before it. -/
theorem rewritten_getElem? {notes : List Note} (seen : List String) {references : List Tree}
    (hcovers : Covers notes references) {position : Nat} {reference : Tree}
    (hreference : references[position]? = some reference) :
    ∃ note ∈ notes, note.name = reference.noteName ∧
      (rewritten notes seen references)[position]? =
        some (note.referenceTree
          ((((references.take position).map Tree.noteName).reverse ++ seen).count note.name)
          reference.data) := by
  induction references generalizing seen position with
  | nil => simp at hreference
  | cons first rest ih =>
      obtain ⟨note, hmem, hfind, hname⟩ := find?_of_covers hcovers
      have hrest : Covers notes rest := fun other hmem => hcovers other (List.mem_cons_of_mem _ hmem)
      rw [rewritten, hfind]
      cases position with
      | zero =>
          obtain rfl : first = reference := by simpa using hreference
          exact ⟨note, hmem, hname, by simp⟩
      | succ position =>
          obtain ⟨other, hother, hotherName, hget⟩ := ih (note.name :: seen) hrest hreference
          refine ⟨other, hother, hotherName, ?_⟩
          rw [List.getElem?_cons_succ, hget]
          simp [hname]

theorem length_rewritten {notes : List Note} (seen : List String) {references : List Tree}
    (hcovers : Covers notes references) :
    (rewritten notes seen references).length = references.length := by
  induction references generalizing seen with
  | nil => rfl
  | cons first rest ih =>
      obtain ⟨note, hmem, hfind, hname⟩ := find?_of_covers hcovers
      rw [rewritten, hfind]
      simp [ih _ fun other hmem => hcovers other (List.mem_cons_of_mem _ hmem)]

theorem references_referenceTree (note : Note) (index : Nat) (data : Node) (rest : Forest) :
    Forest.references (note.referenceTree index data :: rest) = rest.references := by
  simp [Forest.matching_cons, referenceTree, Tree.isNoteRef, Tree.elementLeaf, Tree.leaf]

theorem superscripts_referenceTree (note : Note) (index : Nat) (data : Node) (rest : Forest) :
    Forest.superscripts (note.referenceTree index data :: rest) =
      note.referenceTree index data :: rest.superscripts := by
  simp [Forest.matching_cons, referenceTree, Tree.isSuperscript, Tree.elementLeaf, Tree.leaf]

end Note

namespace Tree

open Forest

mutual

/-- Rewriting a tree without elements leaves no reference, and its raised parts are what
its references become. -/
theorem rewriteNoteRefs_spec {notes : List Note} {tree : Tree}
    (htree : tree.Obeys (Sound liftedKinds)) (hcovers : Note.Covers notes (references [tree]))
    (seen : List String) :
    references [(tree.rewriteNoteRefs notes seen).1] = [] ∧
      superscripts [(tree.rewriteNoteRefs notes seen).1] =
        Note.rewritten notes seen (references [tree]) ∧
      (tree.rewriteNoteRefs notes seen).2 =
        ((references [tree]).map noteName).reverse ++ seen := by
  obtain ⟨data, children⟩ := tree
  rw [rewriteNoteRefs]
  dsimp only
  split
  next href =>
    have hself : references [.node data children] = [.node data children] := by
      have hbelow := references_children htree href
      simp [matching_cons, href, show matching isNoteRef children = [] from hbelow]
    rw [hself] at hcovers
    obtain ⟨note, hmem, hfind, hname⟩ := Note.find?_of_covers hcovers
    rw [hfind, hself]
    refine ⟨by simp [Note.references_referenceTree], ?_, by simp [hname]⟩
    simp [Note.superscripts_referenceTree, Note.rewritten, hfind, Tree.data]
  next hnot =>
    have hchildren : references [.node data children] = references children := by
      simp [matching_cons, hnot, Tree.children]
    rw [hchildren] at hcovers
    obtain ⟨hnone, hplaced, hseen⟩ := forestRewriteNoteRefs_spec htree.children hcovers seen
    have hbare : data.element = none := htree.data.element_eq_none
    rw [hchildren]
    refine ⟨?_, ?_, hseen⟩
    · have hnot' : ∀ others, (Tree.node data others).isNoteRef = false := fun _ => by
        simpa [isNoteRef, kind, Tree.data] using hnot
      simpa [matching_cons, hnot', Tree.children] using hnone
    · simpa [matching_cons, isSuperscript, Tree.data, hbare, Tree.children] using hplaced

theorem forestRewriteNoteRefs_spec {notes : List Note} {forest : Forest}
    (hforest : forest.Obeys (Sound liftedKinds)) (hcovers : Note.Covers notes forest.references)
    (seen : List String) :
    references (forestRewriteNoteRefs notes seen forest).1 = [] ∧
      superscripts (forestRewriteNoteRefs notes seen forest).1 =
        Note.rewritten notes seen forest.references ∧
      (forestRewriteNoteRefs notes seen forest).2 =
        (forest.references.map noteName).reverse ++ seen := by
  cases forest with
  | nil => exact ⟨by simp [forestRewriteNoteRefs], by simp [forestRewriteNoteRefs, Note.rewritten], rfl⟩
  | cons tree rest =>
      obtain ⟨htree, hrest⟩ := obeys_cons.mp hforest
      have hsplit : references (tree :: rest) = references [tree] ++ references rest :=
        matching_singleton_append tree rest
      rw [hsplit] at hcovers
      have hfirst : Note.Covers notes (references [tree]) := fun reference hmem =>
        hcovers reference (List.mem_append_left _ hmem)
      have hothers : Note.Covers notes (references rest) := fun reference hmem =>
        hcovers reference (List.mem_append_right _ hmem)
      obtain ⟨hnone, hplaced, hseen⟩ := rewriteNoteRefs_spec htree hfirst seen
      obtain ⟨hnone', hplaced', hseen'⟩ := forestRewriteNoteRefs_spec hrest hothers
        (tree.rewriteNoteRefs notes seen).2
      simp only [forestRewriteNoteRefs, hsplit]
      refine ⟨?_, ?_, ?_⟩
      · refine (matching_singleton_append _ _).trans ?_
        exact List.append_eq_nil_iff.mpr ⟨hnone, hnone'⟩
      · refine (matching_singleton_append _ _).trans ?_
        refine (congrArg₂ (· ++ ·) hplaced hplaced').trans ?_
        rw [hseen, Note.rewritten_append seen hfirst]
      · rw [hseen', hseen]
        simp

end

end Tree

end PageMarkup
