import PageMarkup.Proofs.Arena.Building
import PageMarkup.Proofs.Arena.Contract

/-! # Arenas refine ordered forests

Every operation on an arena has a condition under which it is meant to be used and an effect
on the ordered forest that the arena is read as. In a coherent arena an operation whose
condition is met ends without a fault in a coherent arena and has its effect, and so does one
operation after the other.
-/

namespace PageMarkup

namespace Arena

/-- An operation that rearranges the nodes of an arena. -/
inductive Edit where
  | append (parent child : Nat)
  | prepend (parent child : Nat)
  | insertBefore (sibling child : Nat)
  | detach (id : Nat)
  | remove (id : Nat)
  | clear (id : Nat)
  | moveChildren (source target : Nat)
  | alloc (data : Node)
  | push (parent : Nat) (data : Node)

namespace Edit

/-- Carries an operation out. -/
def run (arena : Arena) : Edit → Except ArenaFault Arena
  | .append parent child => arena.append parent child
  | .prepend parent child => arena.prepend parent child
  | .insertBefore sibling child => arena.insertBefore sibling child
  | .detach id => arena.detach id
  | .remove id => arena.remove id
  | .clear id => arena.clear id
  | .moveChildren source target => arena.moveChildren source target
  | .alloc data => .ok (arena.alloc data).2
  | .push parent data => (arena.push parent data).map Prod.snd

/-- When an operation is used as it is meant to be. A node that is linked stands apart, and
where it goes is not below it. -/
def Allowed (forest : OrderedForest) : Edit → Prop
  | .append parent child | .prepend parent child =>
    forest.Live parent ∧ forest.Detached child ∧ ¬ forest.Below child parent
  | .insertBefore sibling child =>
    (∃ parent, forest.Parent parent sibling) ∧ forest.Detached child ∧
      ¬ forest.Below child sibling
  | .detach id | .remove id => forest.Live id ∧ id ≠ root
  | .clear id => forest.Live id
  | .moveChildren source target =>
    forest.Live source ∧ forest.Live target ∧ ¬ forest.Below source target
  | .alloc _ => True
  | .push parent _ => forest.Live parent

/-- The numbers are those of a node and of everything below it, each of them once. -/
def Subtree (arena : Arena) (id : Nat) (ids : List Nat) : Prop :=
  arena.descendants id = .ok ids ∧ ids.Nodup ∧
    ∀ other, other ∈ ids ↔ arena.forest.Below id other

/-- The numbers became free, each of them once, and nothing else did. -/
def Frees (arena next : Arena) (ids : List Nat) : Prop :=
  next.free.Perm (ids ++ arena.free) ∧ next.size + ids.length = arena.size

/-- What an operation does to the ordered forest. Of a node that is stored it tells the number,
which no node had. -/
def Effect (arena next : Arena) : Edit → Prop
  | .append parent child => next.forest = arena.forest.link parent child (· ++ [child])
  | .prepend parent child => next.forest = arena.forest.link parent child (child :: ·)
  | .insertBefore sibling child =>
    ∃ parent, arena.forest.Parent parent sibling ∧
      next.forest = arena.forest.link parent child (OrderedForest.putBefore sibling child)
  | .detach id =>
    next.forest = arena.forest.unlink id ∧ next.descendants id = arena.descendants id
  | .remove id =>
    ∃ ids, Subtree arena id ids ∧ next.forest = (arena.forest.unlink id).without ids ∧
      Frees arena next ids
  | .clear id =>
    ∃ ids, Subtree arena id (id :: ids) ∧
      next.forest =
        (arena.forest.modify id fun entry => { entry with children := [] }).without ids ∧
      Frees arena next ids
  | .moveChildren source target => next.forest = arena.forest.moveChildren source target
  | .alloc data =>
    ∃ id, arena.alloc data = (id, next) ∧ ¬ arena.forest.Live id ∧
      next.forest = arena.forest.insert id data ∧ next.size = arena.size + 1
  | .push parent data =>
    ∃ id, arena.push parent data = .ok (id, next) ∧ ¬ arena.forest.Live id ∧
      next.forest = (arena.forest.insert id data).link parent id (· ++ [id])

/-- Every operation is allowed when its turn comes. -/
def AllAllowed (arena : Arena) : List Edit → Prop
  | [] => True
  | edit :: edits =>
    edit.Allowed arena.forest ∧ ∀ next, edit.run arena = .ok next → AllAllowed next edits

end Edit

namespace Coherent

variable {arena : Arena} (harena : arena.Coherent)

include harena

/-- The ordered forest of a coherent arena tells of each of its nodes. -/
theorem exists_forest {id : Nat} {cell : Cell} (hcell : arena.get? id = some cell) :
    ∃ children, arena.children id = .ok children ∧
      arena.forest id = some ⟨cell.data, cell.parent, children⟩ := by
  obtain ⟨roots, hstores, -⟩ := harena.exists_stores
  obtain ⟨entry, hentry⟩ := hstores.live_iff.mpr (hstores.live id cell hcell)
  have hchildren := children_of_forest hentry
  exact ⟨_, hchildren, by rw [Arena.forest, hcell, hchildren]⟩

/-- An operation that is allowed leaves a coherent arena and has its effect. -/
theorem exists_run {edit : Edit} (hallowed : edit.Allowed arena.forest) :
    ∃ next, edit.run arena = .ok next ∧ next.Coherent ∧ edit.Effect arena next := by
  cases edit with
  | append parent child =>
      obtain ⟨hparent, hchild, hnot⟩ := hallowed
      exact harena.append hparent hchild hnot
  | prepend parent child =>
      obtain ⟨hparent, hchild, hnot⟩ := hallowed
      exact harena.prepend hparent hchild hnot
  | insertBefore sibling child =>
      obtain ⟨⟨parent, hsibling⟩, hchild, hnot⟩ := hallowed
      obtain ⟨next, hok, hnext, hforest⟩ := harena.insertBefore hsibling hchild hnot
      exact ⟨next, hok, hnext, parent, hsibling, hforest⟩
  | detach id =>
      obtain ⟨hlive, hid⟩ := hallowed
      exact harena.detach hlive hid
  | remove id =>
      obtain ⟨hlive, hid⟩ := hallowed
      obtain ⟨next, ids, hok, hnext, hids, hnodup, hbelow, hforest, hfrees⟩ :=
        harena.remove hlive hid
      exact ⟨next, hok, hnext, ids, ⟨hids, hnodup, hbelow⟩, hforest, hfrees⟩
  | clear id =>
      obtain ⟨next, ids, hok, hnext, hids, hnodup, hbelow, hforest, hfrees⟩ :=
        harena.clear hallowed
      exact ⟨next, hok, hnext, ids, ⟨hids, hnodup, hbelow⟩, hforest, hfrees⟩
  | moveChildren source target =>
      obtain ⟨hsource, htarget, hnot⟩ := hallowed
      exact harena.moveChildren hsource htarget hnot
  | alloc data =>
      obtain ⟨next, id, hok, hnext, heffect⟩ := harena.alloc data
      exact ⟨next, by rw [Edit.run, hok], hnext, id, hok, heffect⟩
  | push parent data =>
      obtain ⟨next, id, hok, hnext, heffect⟩ := harena.push hallowed data
      exact ⟨next, by rw [Edit.run, hok]; rfl, hnext, id, hok, heffect⟩

/-- Operations that are allowed, each when its turn comes, leave a coherent arena. -/
theorem exists_runs {edits : List Edit} (hallowed : Edit.AllAllowed arena edits) :
    ∃ next, edits.foldlM Edit.run arena = .ok next ∧ next.Coherent := by
  induction edits generalizing arena with
  | nil => exact ⟨arena, rfl, harena⟩
  | cons edit edits ih =>
      obtain ⟨hedit, hedits⟩ := hallowed
      obtain ⟨middle, hmiddle, hcoherent, -⟩ := harena.exists_run hedit
      obtain ⟨next, hnext, hcoherent⟩ := ih hcoherent (hedits middle hmiddle)
      exact ⟨next, by rw [List.foldlM_cons, hmiddle, ok_bind, hnext], hcoherent⟩

omit harena in
/-- The links of an arena with the root of a document only fit together. -/
theorem of_new : Arena.new.Coherent := Building.holds_new.coherent (by decide)

/-- The ordered forest of a coherent arena tells of each of its nodes, and every operation that
is allowed there leaves a coherent arena and has its effect. -/
theorem refines :
    (∀ {id cell}, arena.get? id = some cell → ∃ children, arena.children id = .ok children ∧
      arena.forest id = some ⟨cell.data, cell.parent, children⟩) ∧
    ∀ edit : Edit, edit.Allowed arena.forest →
      ∃ next, edit.run arena = .ok next ∧ next.Coherent ∧ edit.Effect arena next :=
  ⟨harena.exists_forest, fun _ hallowed => harena.exists_run hallowed⟩

end Coherent

/-- A document with two paragraphs, of which the first has a child, beside a text that stands
apart and a free slot. -/
def refinesExample : Arena where
  slots :=
    #[ some { data := { kind := .documentRoot }, first := some 1, last := some 2 }
     , some { data := { kind := .paragraph }, parent := some 0, next := some 2, first := some 3,
              last := some 3 }
     , some { data := { kind := .paragraph }, parent := some 0, previous := some 1 }
     , some { data := { kind := .text }, parent := some 1 }
     , none
     , some { data := { kind := .text } } ]
  free := [4]

/-- The trees of the example. -/
def refinesTrees : NumberedForest :=
  [ .node 0 { kind := .documentRoot }
      [.node 1 { kind := .paragraph } [.node 3 { kind := .text } []],
       .node 2 { kind := .paragraph } []]
  , .node 5 { kind := .text } [] ]

theorem refinesExample_stores : Stores refinesExample refinesTrees := by
  have hids : refinesTrees.ids = [0, 1, 3, 2, 5] := by simp [refinesTrees]
  apply stores_of_slots hids (by decide) ?_ (by decide) (by decide)
  simp only [refinesTrees, linked_cons, linked_nil]
  decide

/-- The paragraph's child is moved to the root, after the two paragraphs. -/
theorem refines_moveChildren : refinesExample.Coherent ∧
    ∃ next, refinesExample.moveChildren 1 0 = .ok next ∧ next.Coherent ∧
      next.children 0 = .ok [1, 2, 3] ∧ next.children 1 = .ok [] := by
  have hcoherent : refinesExample.Coherent := refinesExample_stores.coherent (by decide)
  have hallowed : Edit.Allowed refinesExample.forest (.moveChildren 1 0) := by
    refine ⟨⟨_, rfl⟩, ⟨_, rfl⟩, fun hbelow => ?_⟩
    obtain heq | ⟨above, -, entry, hentry, hparent⟩ := hbelow.cases_tail
    · exact absurd heq (by decide)
    · obtain rfl := Option.some.inj hentry
      cases hparent
  obtain ⟨next, hok, hnext, hforest⟩ := hcoherent.refines.2 _ hallowed
  refine ⟨hcoherent, next, hok, hnext, ?_, ?_⟩
  · exact children_of_forest (congrFun hforest 0)
  · exact children_of_forest (congrFun hforest 1)

end Arena

end PageMarkup
