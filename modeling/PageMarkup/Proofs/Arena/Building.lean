import PageMarkup.Arena.Building
import PageMarkup.Proofs.Arena.Moving

/-! # Nesting in an arena

The aggregates that are open are the nodes on the way from the root to where the next
lexeme goes. The state of nesting says the same without numbers, and every lexeme keeps
the two in step.
-/

namespace PageMarkup

open NumberedForest

namespace Building

/-- The open aggregates of a nesting are the nodes above a place, and those on a stack. -/
inductive Spine : List Pending → Place → List Nat → Prop where
  | root : Spine [] [Arena.top] []
  | opened {aggregates : List Pending} {place : Place} {stack : List Nat} (id : Nat)
      (aggregate : Aggregate) (opener : Span) (before : NumberedForest) :
      Spine aggregates place stack →
      Spine (⟨aggregate, opener, before.erase.reverse⟩ :: aggregates)
        (⟨id, opened aggregate opener, before, []⟩ :: place) (id :: stack)

/-- An arena and a nesting after the same lexemes. -/
def Follows (building : Building) (state : Nesting) : Prop :=
  ∃ place siblings, Spine state.pending place building.stack ∧
    state.level = siblings.erase.reverse ∧ Arena.Stores building.arena (Place.plug place siblings)

theorem holds_new : Arena.Holds Arena.new [] where
  distinct := by simp [Place.plug, Arena.top]
  linked := by
    rw [Place.plug_cons]
    exact Arena.linked_cons.mpr ⟨rfl, Arena.linked_nil, Arena.linked_nil⟩
  live id cell hcell := by
    have hlt := Arena.lt_size_of_get? hcell
    have hid : id = Arena.root := Nat.lt_one_iff.mp hlt
    simp [Place.plug, Arena.top, hid]
  tidy := by
    refine ⟨List.nodup_nil, fun id => ⟨nofun, fun ⟨hlt, hnone⟩ => ?_⟩⟩
    have hid : id = 0 := Nat.lt_one_iff.mp hlt
    rw [hid] at hnone
    cases hnone

variable {building : Building} {state : Nesting}

theorem Follows.enter {place : Place} {siblings : NumberedForest} {frame : Frame}
    (hspine : Spine state.pending (frame :: place) building.stack)
    (hlevel : state.level = siblings.erase.reverse)
    (hstores : Arena.Stores building.arena (Place.plug (frame :: place) siblings))
    (lexeme : Lexeme) :
    ∃ next, building.enter frame.id lexeme = .ok next ∧ Follows next (state.enter lexeme) := by
  rw [Building.enter, Nesting.enter]
  cases lexeme.kind.starts? with
  | some aggregate =>
      obtain ⟨id, pushed, hpush, hstores⟩ := hstores.push (opened aggregate lexeme.span)
      refine ⟨⟨pushed, id :: building.stack⟩, by simp [hpush],
        ⟨id, opened aggregate lexeme.span, siblings, []⟩ :: frame :: place, [], ?_, by simp, hstores⟩
      simp only [hlevel]
      exact .opened id aggregate lexeme.span siblings hspine
  | none =>
      obtain ⟨id, pushed, hpush, hstores⟩ := hstores.push (Nesting.leafOf lexeme).data
      refine ⟨{ building with arena := pushed }, by simp [hpush], frame :: place, _, hspine, ?_,
        hstores⟩
      simp [hlevel, Nesting.leafOf, Tree.leaf, Tree.data]

/-- One more lexeme is nested. -/
theorem Follows.step (hfollows : Follows building state) (lexeme : Lexeme) :
    ∃ next, building.step lexeme = .ok next ∧ Follows next (state.step lexeme) := by
  obtain ⟨place, siblings, hspine, hlevel, hstores⟩ := hfollows
  obtain ⟨arena, stack⟩ := building
  obtain ⟨pending, level⟩ := state
  obtain rfl : level = siblings.erase.reverse := hlevel
  have hspine' := hspine
  cases hspine with
  | root =>
      obtain ⟨next, hnext, hfollows⟩ := Follows.enter hspine' rfl hstores lexeme
      have hroot : arena.get Arena.root = .ok _ :=
        Arena.get_eq (Arena.Stores.get?_parent hstores.linked)
      refine ⟨next, ?_, hfollows⟩
      simp only [Building.step, hroot, Arena.ok_bind]
      exact hnext
  | opened id aggregate opener before houter =>
      have hget : arena.get id = .ok _ :=
        Arena.get_eq (Arena.Stores.get?_parent hstores.linked)
      simp only [Building.step, Nesting.step, hget, Arena.ok_bind]
      have hends : ((opened aggregate opener).kind.aggregate?.map Aggregate.endedBy =
          some lexeme.kind) ↔ lexeme.kind = aggregate.endedBy := by
        simp [opened, Kind.aggregate?, eq_comm]
      by_cases hcloses : lexeme.kind = aggregate.endedBy
      · rw [if_pos (hends.mpr hcloses), if_pos hcloses]
        have hnode : Arena.Stores arena
          (Place.plug _ (before ++ NumberedTree.node id (opened aggregate opener) siblings :: [])) := hstores
        obtain ⟨next, hnext, hstores⟩ := hnode.update (closed lexeme.span)
        have hnext : (arena.modify id fun cell =>
          { cell with data := closed lexeme.span cell.data }) = .ok next := hnext
        refine ⟨_, by rw [hnext, Arena.ok_bind]; rfl, _, _, houter, ?_, hstores⟩
        simp [Nesting.close, closed, opened]
      · rw [if_neg fun h => hcloses (hends.mp h), if_neg hcloses]
        exact Follows.enter hspine' rfl hstores lexeme

theorem Follows.foldlM (lexemes : List Lexeme) (hfollows : Follows building state) :
    ∃ next, lexemes.foldlM Building.step building = .ok next ∧
      Follows next (lexemes.foldl Nesting.step state) := by
  induction lexemes generalizing building state with
  | nil => exact ⟨building, rfl, hfollows⟩
  | cons lexeme rest ih =>
      obtain ⟨stepped, hstep, hfollows⟩ := hfollows.step lexeme
      obtain ⟨next, hnext, hfollows⟩ := ih hfollows
      exact ⟨next, by rw [List.foldlM_cons, hstep, Arena.ok_bind, hnext], hfollows⟩

end Building

/-- Lexemes nest into an arena as they nest into a forest, and end with the same fault if
they do not. -/
theorem Arena.build_eq (lexemes : List Lexeme) :
    (∃ fault, Forest.ofLexemes lexemes = .error fault ∧ build lexemes = .ok (.error fault)) ∨
      ∃ arena forest, Forest.ofLexemes lexemes = .ok forest.erase ∧
        build lexemes = .ok (.ok arena) ∧ Holds arena forest := by
  have hnew : Building.Follows {} {} := ⟨[top], [], .root, by simp, Building.holds_new⟩
  obtain ⟨⟨arena, stack⟩, hfold, place, siblings, hspine, hlevel, hstores⟩ := hnew.foldlM lexemes
  rw [Arena.build, Forest.ofLexemes, hfold, ok_bind]
  generalize lexemes.foldl Nesting.step {} = state at *
  obtain ⟨pending, level⟩ := state
  cases hspine with
  | root =>
      refine .inr ⟨arena, siblings, ?_, rfl, hstores⟩
      rw [Nesting.finish, hlevel, List.reverse_reverse]
  | opened id aggregate opener before houter =>
      refine .inl ⟨_, rfl, ?_⟩
      simp only [Building.finish, get_eq (Stores.get?_parent hstores.linked), ok_bind]
      rfl

end PageMarkup
