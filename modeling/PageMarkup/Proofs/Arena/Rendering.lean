import PageMarkup.Proofs.Arena.Coherent

/-! # Writing a tree of an arena

A tree is written with a stack of what is left to write. Whatever the stack holds below
them, the nodes of some siblings on top of it are written first, in their order and each
with all that is below it, so that the output grows by what the structure of the siblings
alone tells.
-/

namespace PageMarkup

open NumberedForest

/-! ## By structure -/

/-- The HTML of a forest without the tree of the number `skip`. An element that is a container or
has children stands around them. Any other element closes itself if it never has content, and
stands around its escaped content if it may have some. A node without element is its text or just
its children. -/
def NumberedForest.html (skip : Option Nat) : NumberedForest → String
  | [] => ""
  | .node id data children :: rest =>
    (if skip = some id then ""
      else
        match data.element with
        | some element =>
          if data.kind = .container ∨ children ≠ [] then
            "<" ++ element.tag ++ Html.renderAttributes element.attributes ++ ">" ++
              html skip children ++ "</" ++ element.tag ++ ">"
          else if element.tag ∈ ["img", "br", "hr"] then
            "<" ++ element.tag ++ Html.renderAttributes element.attributes ++ "/>"
          else
            "<" ++ element.tag ++ Html.renderAttributes element.attributes ++ ">" ++
              Html.escapeText (element.content.getD "") ++ "</" ++ element.tag ++ ">"
        | none => if children = [] then Html.escapeText data.text else html skip children) ++
      html skip rest

/-- The HTML of a tree without what stands in it at the number `skip`. -/
def NumberedTree.html (tree : NumberedTree) (skip : Option Nat) : String :=
  NumberedForest.html skip [tree]

namespace NumberedForest

@[simp]
theorem html_nil (skip : Option Nat) : html skip [] = "" := by rw [html]

theorem html_cons (skip : Option Nat) (tree : NumberedTree) (rest : NumberedForest) :
    html skip (tree :: rest) = tree.html skip ++ html skip rest := by
  obtain ⟨id, data, children⟩ := tree
  rw [NumberedTree.html, html, html, html_nil, String.append_empty]

end NumberedForest

@[simp]
theorem NumberedTree.html_skipped (id : Nat) (data : Node) (children : NumberedForest) :
    (node id data children).html (some id) = "" := by
  simp [html, NumberedForest.html]

/-- A node that is not left out is written in the pieces of the output. -/
theorem NumberedTree.html_node {skip : Option Nat} {id : Nat} (hskip : skip ≠ some id)
    (data : Node) (children : NumberedForest) :
    (node id data children).html skip =
      match data.element with
      | some element =>
        if data.kind = .container ∨ children ≠ [] then
          Html.renderOpen element ++ children.html skip ++ Html.renderClose element.tag
        else Html.renderWhole element
      | none => if children = [] then Html.escapeText data.text else children.html skip := by
  rw [html, NumberedForest.html, if_neg hskip, html_nil, String.append_empty]
  cases data.element with
  | none => rfl
  | some element =>
      simp only [Html.renderWhole, Html.renderOpen, Html.renderClose, Html.voidTags,
        List.contains_iff_mem, String.append_assoc]

theorem Forest.html_cons (tree : Tree) (rest : Forest) :
    Forest.html (tree :: rest) = tree.html ++ Forest.html rest := by
  rw [Forest.html, Tree.forestPieces, List.map_append, String.join_append]
  rfl

/-- With nothing left out, the numbers make no difference. -/
theorem NumberedForest.html_none (forest : NumberedForest) :
    forest.html none = forest.erase.html := by
  induction forest using NumberedForest.induction with
  | nil => simp [Forest.html, Tree.forestPieces]
  | cons id data children rest ihchildren ihrest =>
      rw [html_cons, ihrest, erase_cons, Forest.html_cons,
        NumberedTree.html_node (Option.some_ne_none id).symm, ihchildren, Tree.html, Tree.pieces,
        Html.frame, isEmpty_erase]
      congr 1
      cases data.element with
      | none => cases children <;> simp [Html.Piece.render, Forest.html]
      | some element =>
          by_cases hopen : data.kind = .container ∨ children ≠ []
          · simp [hopen, Html.Piece.render, Forest.html, String.append_assoc]
          · simp [hopen, Html.Piece.render]

theorem NumberedTree.html_none (tree : NumberedTree) : tree.html none = tree.erase.html := by
  rw [html, NumberedForest.html_none, erase_cons_eq, Forest.html_cons]
  simp [Forest.html, Tree.forestPieces]

namespace Arena

/-! ## With a stack -/

variable {arena : Arena} {skip : Option Nat} {written : String} {stack : List WriteStep}

@[simp]
theorem write_nil : arena.write skip written [] = .ok written := by
  rw [write, repeatM_eq_of_monadTail]
  rfl

theorem write_cons {step : WriteStep} {text : String} {steps : List WriteStep}
    (hstep : arena.writeStep skip step = .ok (text, steps)) :
    arena.write skip written (step :: stack) =
      arena.write skip (written ++ text) (steps ++ stack) := by
  rw [write, repeatM_eq_of_monadTail, repeatM.body, writeNext, hstep]
  rfl

@[simp]
theorem write_exit (tag : String) :
    arena.write skip written (.exit tag :: stack) =
      arena.write skip (written ++ Html.renderClose tag) stack := by
  have hstep : arena.writeStep skip (.exit tag) = .ok (Html.renderClose tag, []) := rfl
  rw [write_cons hstep, List.nil_append]

/-- The steps that enter the nodes of some siblings. -/
def entering (siblings : NumberedForest) : List WriteStep :=
  siblings.map fun tree => .enter tree.id

namespace Stores

variable {id : Nat} {data : Node} {siblings children before after : NumberedForest} {place : Place}

/-- What entering a node writes, and what it leaves to write. -/
theorem writeStep
    (hstores : Stores arena (Place.plug place (before ++ .node id data children :: after)))
    (hskip : skip ≠ some id) :
    arena.writeStep skip (.enter id) = .ok
      (match data.element with
      | some element =>
        if data.kind = .container ∨ children ≠ [] then
          (Html.renderOpen element, entering children ++ [.exit element.tag])
        else (Html.renderWhole element, [])
      | none =>
        if children = [] then (Html.escapeText data.text, []) else ("", entering children)) := by
  obtain ⟨cell, hcell, hdata, -, hleaf⟩ := hstores.exists_get
  have hbelow := hstores.children_of
  rw [NumberedTree.id_node] at hcell hbelow
  rw [NumberedTree.children_node] at hbelow hleaf
  rw [NumberedTree.data_node] at hdata
  simp only [Arena.writeStep, if_neg hskip, hcell, ok_bind, hdata, hleaf, hbelow, List.map_map,
    pure_eq_ok, List.isEmpty_iff]
  cases data.element with
  | none =>
      by_cases hchildren : children = []
      · simp [hchildren]
      · simp [hchildren, entering, Function.comp_def]
  | some element =>
      by_cases hopen : data.kind = .container ∨ children ≠ []
      · simp [hopen, entering, Function.comp_def]
      · simp [hopen]

/-- Siblings on top of a stack are written as their structure tells, and then the rest of the
stack is. -/
theorem write_consing
    (hstores : Stores arena (Place.plug place (before ++ siblings ++ after))) :
    arena.write skip written (entering siblings ++ stack) =
      arena.write skip (written ++ siblings.html skip) stack := by
  -- The children of a node are at a place below it, where the stack starts with its closing tag.
  induction siblings using NumberedForest.induction
    generalizing place before after written stack with
  | nil => simp [entering]
  | cons id data children rest ihchildren ihrest =>
      have hbelow : Stores arena
          (Place.plug (⟨id, data, before, rest ++ after⟩ :: place) ([] ++ children ++ [])) := by
        rwa [Place.plug_below]
      have hbeside : Stores arena
          (Place.plug place (before ++ [.node id data children] ++ rest ++ after)) := by
        rwa [Place.plug_beside]
      rw [html_cons, ← String.append_assoc, ← ihrest hbeside, entering, List.map_cons,
        List.cons_append, NumberedTree.id_node, ← entering]
      by_cases hskip : skip = some id
      · have hstep : arena.writeStep skip (.enter id) = .ok ("", []) := if_pos hskip
        rw [write_cons hstep, hskip, NumberedTree.html_skipped]
        rfl
      · rw [List.append_assoc, List.cons_append] at hstores
        rw [write_cons (hstores.writeStep hskip), NumberedTree.html_node hskip]
        cases data.element with
        | none =>
            by_cases hchildren : children = []
            · simp [hchildren]
            · simp [hchildren, ihchildren hbelow]
        | some element =>
            by_cases hopen : data.kind = .container ∨ children ≠ []
            · simp only [hopen, if_true, List.append_assoc, ihchildren hbelow,
                List.cons_append, List.nil_append, write_exit, String.append_assoc]
            · simp only [hopen, if_false, List.nil_append]

theorem html (hstores : Stores arena (Place.plug place (before ++ .node id data children :: after)))
    (skip : Option Nat) :
    arena.html id skip = .ok ((NumberedTree.node id data children).html skip) := by
  have hplug : Stores arena (Place.plug place (before ++ [.node id data children] ++ after)) := by
    simpa using hstores
  have hwrite : arena.write skip "" (entering [.node id data children] ++ []) = _ :=
    hplug.write_consing
  simpa [entering, Arena.html, NumberedTree.html] using hwrite

end Stores

variable {id : Nat} {cell : Cell}

/-- Writing with a stack is writing by structure: the links of each node that is in use make up a
tree, and the output is the HTML of that tree, whatever node is left out. With nothing left out it
is the HTML of the tree without its numbers. -/
theorem html_by_structure (harena : arena.Coherent) (hcell : arena.get? id = some cell) :
    ∃ tree : NumberedTree, tree.id = id ∧
      Linked arena cell.parent cell.previous cell.next [tree] ∧
      (∀ skip, arena.html id skip = .ok (tree.html skip)) ∧
      arena.html id none = .ok tree.erase.html := by
  obtain ⟨roots, hstores, -⟩ := harena.exists_stores
  obtain ⟨place, before, tree, after, rfl, rfl, rfl⟩ := hstores.exists_place hcell
  have hchildren : Linked arena (some tree.id) none none tree.children := by
    have hsiblings := (linked_append.mp (linked_plug.mp hstores.linked).2).2
    exact (linked_tree.mp hsiblings).2.1
  have hhtml : ∀ skip, arena.html tree.id skip = .ok (tree.html skip) := by
    cases tree
    exact hstores.html
  refine ⟨tree, rfl, linked_tree.mpr ⟨?_, hchildren, linked_nil⟩, hhtml, ?_⟩
  · rw [hcell]
    cases Place.parent place <;> rfl
  · rw [hhtml, NumberedTree.html_none]

/-- A document with a text and a picture in a paragraph, before an empty container. -/
def htmlExample : Arena where
  slots :=
    #[ some { data := { kind := .documentRoot }, first := some 1, last := some 5 }
     , some { data := { kind := .container, element := some { tag := "p" } }, parent := some 0,
              next := some 5, first := some 2, last := some 3 }
     , some { data := { kind := .ready, text := "a < b" }, parent := some 1, next := some 3 }
     , some { data := { kind := .container }, parent := some 1, previous := some 2,
              first := some 4, last := some 4 }
     , some { data := { kind := .ready, element := some ⟨"img", [("src", "/a.png")], some "A"⟩ },
              parent := some 3 }
     , some { data := { kind := .container, element := some { tag := "div" } }, parent := some 0,
              previous := some 1 } ]
  free := []

/-- The tree of the example. -/
def htmlTree : NumberedTree :=
  .node 0 { kind := .documentRoot }
    [ .node 1 { kind := .container, element := some { tag := "p" } }
        [ .node 2 { kind := .ready, text := "a < b" } []
        , .node 3 { kind := .container }
            [.node 4 { kind := .ready, element := some ⟨"img", [("src", "/a.png")], some "A"⟩ } []] ]
    , .node 5 { kind := .container, element := some { tag := "div" } } [] ]

theorem htmlExample_stores : Stores htmlExample [htmlTree] := by
  have hids : NumberedForest.ids [htmlTree] = [0, 1, 2, 3, 4, 5] := by simp [htmlTree]
  apply stores_of_slots hids (by decide) ?_ (by decide) (by decide)
  simp only [htmlTree, linked_cons, linked_nil]
  decide

theorem html_by_structure_htmlExample : htmlExample.Coherent ∧
    ∃ tree : NumberedTree, tree.id = 1 ∧
      Linked htmlExample (some 0) none (some 5) [tree] ∧
      (∀ skip, htmlExample.html 1 skip = .ok (tree.html skip)) ∧
      htmlExample.html 1 none = .ok tree.erase.html := by
  have hcoherent : htmlExample.Coherent := htmlExample_stores.coherent (by decide)
  obtain ⟨cell, hcell, hlinks⟩ : ∃ cell, htmlExample.get? 1 = some cell ∧
      cell.parent = some 0 ∧ cell.previous = none ∧ cell.next = some 5 := ⟨_, rfl, by decide⟩
  have hhtml := html_by_structure hcoherent hcell
  rw [hlinks.1, hlinks.2.1, hlinks.2.2] at hhtml
  exact ⟨hcoherent, hhtml⟩

/-- What the example writes without its paragraph. -/
example : htmlTree.html (some 1) = "<div></div>" := by
  cbv

end Arena

end PageMarkup
