import PageMarkup.Proofs.Page.Shape

/-! # Directives line by line

The directives of a source can be read without its tree: a mark opens a directive and
the texts up to the end of the line are its argument. On a page that passes the check of
the structure, the directives lifted from the tree are exactly those.
-/

namespace PageMarkup

namespace Directive

/-- The directive that a lexeme opens, given the lexemes after it. -/
def ofLine? (source : Source) (mark : Lexeme) (rest : List Lexeme) : Option Directive :=
  if mark.kind = .lineMark .directive then
    (parseOpening? (source.slice mark.span)).map fun opening =>
      let line := rest.takeWhile (·.kind != .newline)
      { name := opening.name
        subname := opening.subname
        argument := cleanArgument (opening.rest ++ String.join (line.map (·.text)))
        offset := mark.span.start }
  else none

/-- The directives of lexemes, in order. -/
def ofLexemes (source : Source) : List Lexeme → List Directive
  | [] => []
  | mark :: rest => (ofLine? source mark rest).toList ++ ofLexemes source rest

end Directive

/-- The directives of a source, line by line. -/
def Source.directives (source : Source) : List Directive :=
  Directive.ofLexemes source source.lexemes

/-! ## Marks -/

/-- The lexemes open no directive. -/
def Lexeme.NoDirective (lexemes : List Lexeme) : Prop :=
  ∀ lexeme ∈ lexemes, lexeme.kind ≠ .lineMark .directive

namespace Directive

variable {source : Source}

theorem ofLexemes_append {first : List Lexeme} (hfirst : Lexeme.NoDirective first)
    (second : List Lexeme) : ofLexemes source (first ++ second) = ofLexemes source second := by
  induction first with
  | nil => rfl
  | cons mark rest ih =>
      obtain ⟨hmark, hrest⟩ := List.forall_mem_cons.mp hfirst
      rw [List.cons_append, ofLexemes, ofLine?, if_neg hmark, ih hrest]
      rfl

/-- A mark, the line after it and the newline that ends it give one directive at most. -/
theorem ofLexemes_line {mark closer : Lexeme} {line : List Lexeme} (rest : List Lexeme)
    (hline : ∀ lexeme ∈ line, lexeme.kind ≠ .newline) (hplain : Lexeme.NoDirective line)
    (hcloser : closer.kind = .newline) :
    ofLexemes source (mark :: line ++ closer :: rest) =
      (ofLine? source mark (line ++ [closer])).toList ++ ofLexemes source rest := by
  have hends : ∀ more, (line ++ closer :: more).takeWhile (·.kind != .newline) = line := by
    intro more
    rw [List.takeWhile_append_of_pos fun lexeme hmem => by simpa using hline lexeme hmem]
    simp [hcloser]
  have hskip : Lexeme.NoDirective (line ++ [closer]) := by
    intro lexeme hmem
    rcases List.mem_append.mp hmem with hmem | hmem
    · exact hplain lexeme hmem
    · rw [List.mem_singleton.mp hmem, hcloser]
      nofun
  have hrest : ofLexemes source (line ++ closer :: rest) = ofLexemes source rest := by
    rw [← List.singleton_append, ← List.append_assoc]
    exact ofLexemes_append hskip rest
  rw [List.cons_append, ofLexemes, hrest]
  simp only [ofLine?, hends]

end Directive

namespace Tree

/-- What cannot have children is a single lexeme. -/
theorem Grammatical.eq_leafOf {tree : Tree} (htree : tree.Grammatical)
    (hkind : tree.kind.canHaveChildren = false) :
    ∃ lexeme : Lexeme, tree = Nesting.leafOf lexeme ∧ lexeme.kind.aggregate? = none ∧
      lexeme.kind.starts? = none := by
  cases htree with
  | leaf lexeme haggregate hstarts => exact ⟨lexeme, rfl, haggregate, hstarts⟩
  | aggregate => cases hkind

/-- Below a node that is no directive there is none, so nothing in it is the mark of one. -/
theorem Grammatical.noDirective {tree : Tree} (htree : tree.Grammatical)
    (hchecked : tree.Obeys Node.Checked) (hkind : tree.kind ≠ .aggregate (.line .directive)) :
    ∀ mark ∈ tree.reading, mark.kind ≠ .lineMark .directive := by
  induction htree with
  | leaf lexeme haggregate hstarts =>
      intro mark hmem hmark
      rw [reading_leafOf haggregate, List.mem_singleton] at hmem
      subst hmem
      rw [show lexeme.kind = .lineMark .directive from hmark] at hstarts
      cases hstarts
  | aggregate aggregate opener closer children hgrammatical _ ih =>
      have hbelow : ∀ child ∈ children, ∀ mark ∈ child.reading,
          mark.kind ≠ .lineMark .directive := by
        intro child hchild
        apply ih child hchild (Forest.obeys_iff.mp hchecked.children child hchild)
        intro hdirective
        have hplaced := hchecked.data.placed child.kind (List.mem_map_of_mem hchild)
        rw [hdirective] at hplaced
        cases hplaced
      intro mark hmem hmark
      rw [reading] at hmem
      simp only [Option.map_some, Option.toList_some, List.mem_append, List.mem_singleton,
        forestReading_eq_flatMap, List.mem_flatMap] at hmem
      rcases hmem with (rfl | ⟨child, hchild, hmem⟩) | rfl
      · -- Only a directive is opened by the mark of a directive.
        have hstarts := Kind.starts?_eq_some_iff.mpr (show _ = aggregate.startedBy from rfl)
        rw [show aggregate.startedBy = .lineMark .directive from hmark] at hstarts
        cases hstarts
        exact hkind rfl
      · exact hbelow child hchild mark hmem hmark
      · cases aggregate <;> cases hmark

end Tree

namespace Forest

/-- Trees that cannot have children spell themselves. -/
theorem leaves_of_spells {forest : Forest} {lexemes : List Lexeme}
    (hgrammatical : forest.Grammatical) (hspells : forest.Spells lexemes)
    (hkinds : ∀ kind ∈ forest.kinds, kind.canHaveChildren = false) :
    forest = lexemes.map Nesting.leafOf ∧
      ∀ lexeme ∈ lexemes, lexeme.kind.aggregate? = none ∧ lexeme.kind.starts? = none := by
  induction forest generalizing lexemes with
  | nil =>
      cases hspells
      exact ⟨rfl, nofun⟩
  | cons tree rest ih =>
      obtain ⟨htree, hrest⟩ := List.forall_mem_cons.mp hgrammatical
      obtain ⟨hkind, hrestKinds⟩ := List.forall_mem_cons.mp hkinds
      obtain ⟨lexeme, rfl, haggregate, hstarts⟩ := htree.eq_leafOf hkind
      unfold Spells reading at hspells
      rw [Tree.forestReading, Tree.reading_leafOf haggregate, List.singleton_append] at hspells
      obtain ⟨found, others, hmatches, hothers, rfl⟩ := List.forall₂_cons_left_iff.mp hspells
      obtain rfl := Mark.eq_of_matches hmatches
      obtain ⟨rfl, hleaves⟩ := ih hrest hothers hrestKinds
      exact ⟨rfl, List.forall_mem_cons.mpr ⟨⟨haggregate, hstarts⟩, hleaves⟩⟩

theorem exists_mark_of_mem {marks : List Mark} {lexemes : List Lexeme}
    (hspells : List.Forall₂ Mark.Matches marks lexemes) {lexeme : Lexeme}
    (hmem : lexeme ∈ lexemes) : ∃ mark ∈ marks, mark.Matches lexeme := by
  induction hspells with
  | nil => cases hmem
  | cons hmatches _ ih =>
      rcases List.mem_cons.mp hmem with rfl | hmem
      · exact ⟨_, List.mem_cons_self, hmatches⟩
      · obtain ⟨mark, hmark, hfound⟩ := ih hmem
        exact ⟨mark, List.mem_cons_of_mem _ hmark, hfound⟩

theorem forestLeafTexts_leafOf {lexemes : List Lexeme} :
    Tree.forestLeafTexts (lexemes.map Nesting.leafOf) = lexemes.map (·.text) := by
  induction lexemes with
  | nil => rfl
  | cons lexeme rest ih =>
      simp [Tree.forestLeafTexts, ih, Nesting.leafOf, Tree.leaf, Tree.leafTexts, Node.literal]

end Forest

/-- A directive tree spells its mark, a line that opens nothing, and a newline. Its children are
the leaves of the line. -/
theorem Tree.Grammatical.exists_line {tree : Tree} (htree : tree.Grammatical)
    (hchecked : tree.Obeys Node.Checked) (hkind : tree.kind = .aggregate (.line .directive))
    {lexemes : List Lexeme} (hspells : List.Forall₂ Mark.Matches tree.reading lexemes) :
    ∃ (mark : Lexeme) (line : List Lexeme) (closer : Lexeme) (data : Node),
      lexemes = mark :: line ++ [closer] ∧ tree = .node data (line.map Nesting.leafOf) ∧
      mark.kind = .lineMark .directive ∧ data.opener = some mark.span ∧ data.literal = "" ∧
      (∀ lexeme ∈ line, lexeme.kind ≠ .newline) ∧ Lexeme.NoDirective line ∧
      closer.kind = .newline := by
  cases htree with
  | leaf lexeme haggregate =>
      rw [show lexeme.kind = _ from hkind] at haggregate
      cases haggregate
  | aggregate aggregate opener closer children hgrammatical havoids =>
      obtain rfl : aggregate = .line .directive := by simpa using hkind
      rw [Tree.reading] at hspells
      simp only [Option.map_some, Option.toList_some, List.singleton_append] at hspells
      obtain ⟨mark, others, hmark, hothers, rfl⟩ := List.forall₂_cons_left_iff.mp hspells
      obtain ⟨line, last, rfl, hline, hlast⟩ := Forest.matches_append hothers
      obtain ⟨newline, none', hnewline, hnone, rfl⟩ := List.forall₂_cons_left_iff.mp hlast
      cases hnone
      obtain ⟨rfl, hleaves⟩ := Forest.leaves_of_spells hgrammatical hline (hchecked.data.flat rfl)
      refine ⟨mark, line, newline, _, rfl, rfl, hmark.1.symm, congrArg some hmark.2.1, rfl, ?_, ?_,
        hnewline.1.symm⟩
      · intro lexeme hmem heq
        apply havoids (Nesting.leafOf lexeme) (List.mem_map_of_mem hmem)
        exact (Tree.beginsWith_leafOf (hleaves lexeme hmem).1 _).mpr heq
      · intro lexeme hmem heq
        have hstarts := (hleaves lexeme hmem).2
        rw [heq] at hstarts
        cases hstarts

/-! ## Reading a page -/

namespace Directive

open Forest

variable {source : Source}

/-- The line after a mark gives the directive that the tree of the line is. -/
theorem ofLine?_eq_ofTree? {mark newline : Lexeme} {line : List Lexeme} {data : Node}
    (hmark : mark.kind = .lineMark .directive) (hnewline : newline.kind = .newline)
    (hline : ∀ lexeme ∈ line, lexeme.kind ≠ .newline)
    (hkind : data.kind = .aggregate (.line .directive)) (hopener : data.opener = some mark.span)
    (hempty : data.literal = "") :
    ofLine? source mark (line ++ [newline]) =
      ofTree? source (.node data (line.map Nesting.leafOf)) := by
  have hends : (line ++ [newline]).takeWhile (·.kind != .newline) = line := by
    rw [List.takeWhile_append_of_pos fun lexeme hmem => by simpa using hline lexeme hmem]
    simp [hnewline]
  have hcontent : (Tree.node data (line.map Nesting.leafOf)).textContent =
      String.join (line.map (·.text)) := by
    cases line with
    | nil => simp [Tree.textContent, Tree.leafTexts, hempty, String.join]
    | cons lexeme more =>
        rw [← forestLeafTexts_leafOf, Tree.textContent, List.map_cons, Tree.leafTexts]
  rw [ofLine?, if_pos hmark, ofTree?, if_pos (by exact hkind), hends, hcontent]
  simp only [Tree.data, hopener, Option.bind_some]

/-- A tree of a page gives the directive of its line, if it is a directive line, and is read
as nothing else. -/
theorem ofLexemes_tree {tree : Tree} (htree : tree.Grammatical)
    (hchecked : tree.Obeys Node.Checked) {lexemes : List Lexeme}
    (hspells : List.Forall₂ Mark.Matches tree.reading lexemes) (rest : List Lexeme) :
    ofLexemes source (lexemes ++ rest) =
      (ofTree? source tree).toList ++ ofLexemes source rest := by
  by_cases hkind : tree.kind = .aggregate (.line .directive)
  · obtain ⟨mark, line, closer, data, rfl, rfl, hmark, hopener, hempty, hends, hplain, hcloser⟩ :=
      htree.exists_line hchecked hkind hspells
    rw [List.cons_append, List.cons_append, List.append_assoc, List.singleton_append,
      ← List.cons_append, ofLexemes_line rest hends hplain hcloser]
    congr 2
    exact ofLine?_eq_ofTree? hmark hcloser hends hkind hopener hempty
  · have hnone : ofTree? source tree = none := by rw [ofTree?, if_neg hkind]
    have hplain : Lexeme.NoDirective lexemes := by
      intro lexeme hmem heq
      obtain ⟨mark, hmark, hmatches⟩ := exists_mark_of_mem hspells hmem
      exact htree.noDirective hchecked hkind mark hmark (hmatches.1.trans heq)
    rw [ofLexemes_append hplain, hnone]
    rfl

theorem ofLexemes_forest {forest : Forest} (hgrammatical : forest.Grammatical)
    (hchecked : forest.Obeys Node.Checked) {lexemes : List Lexeme}
    (hspells : forest.Spells lexemes) : ofLexemes source lexemes = ofForest source forest := by
  induction forest generalizing lexemes with
  | nil =>
      cases hspells
      rfl
  | cons tree rest ih =>
      obtain ⟨htree, hrest⟩ := List.forall_mem_cons.mp hgrammatical
      obtain ⟨htree', hrest'⟩ := obeys_cons.mp hchecked
      unfold Spells reading at hspells
      rw [Tree.forestReading] at hspells
      obtain ⟨before, after, rfl, hfirst, hothers⟩ := matches_append hspells
      rw [ofLexemes_tree htree htree' hfirst, ih hrest hrest' hothers, ofForest, ofForest,
        List.filterMap_cons]
      cases ofTree? source tree <;> rfl

/-! ## Pruning

A directive has plain leaves below it, if anything, so pruning leaves it as it is.
-/

theorem forestPruneEmpty_of_leaves {forest : Forest} (hbuilt : forest.Obeys (Node.Built source))
    (hkinds : ∀ kind ∈ forest.kinds, kind.canHaveChildren = false) :
    (Tree.forestPruneEmpty forest).1 = forest := by
  induction forest with
  | nil => rfl
  | cons tree rest ih =>
      obtain ⟨htree, hrest⟩ := obeys_cons.mp hbuilt
      obtain ⟨hkind, hrestKinds⟩ := List.forall_mem_cons.mp hkinds
      obtain ⟨data, children⟩ := tree
      obtain rfl : children = [] := List.map_eq_nil_iff.mp (htree.data.childless hkind)
      have hneeds : ¬data.kind.needsChildren := by
        intro hneeds
        cases hdata : data.kind with
        | aggregate aggregate =>
            rw [show data.kind = (Tree.node data []).kind from rfl] at hdata
            rw [hdata] at hkind
            cases hkind
        | _ => rw [hdata] at hneeds; cases hneeds
      rw [Tree.forestPruneEmpty, Tree.pruneEmpty]
      simp [hneeds, Tree.forestPruneEmpty, ih hrest hrestKinds]

theorem ofForest_append (first second : Forest) :
    ofForest source (first ++ second) = ofForest source first ++ ofForest source second :=
  List.filterMap_append

theorem ofForest_pruneEmpty {forest : Forest} (hbuilt : forest.Obeys (Node.Built source))
    (hchecked : forest.Obeys Node.Checked) :
    ofForest source (Tree.forestPruneEmpty forest).1 = ofForest source forest := by
  induction forest with
  | nil => rfl
  | cons tree rest ih =>
      obtain ⟨htree, hrest⟩ := obeys_cons.mp hbuilt
      obtain ⟨hchecks, hrestChecks⟩ := obeys_cons.mp hchecked
      obtain ⟨data, children⟩ := tree
      have hhere : ofForest source (Tree.pruneEmpty (.node data children)).1 =
          ofForest source [.node data children] := by
        by_cases hkind : data.kind = .aggregate (.line .directive)
        · have hkept : (Tree.forestPruneEmpty children).1 = children :=
            forestPruneEmpty_of_leaves htree.children (hchecks.data.flat (by simp [Tree.data, hkind]; rfl))
          have hneeds : data.kind.needsChildren = false := by rw [hkind]; rfl
          simp [Tree.pruneEmpty, hneeds, hkept]
        · have hnone : ∀ kept, ofForest source [.node data kept] = [] := by
            intro kept
            simp [ofForest, ofTree?, Tree.kind, Tree.data, hkind]
          rw [Tree.pruneEmpty, hnone]
          dsimp only
          split
          next => rfl
          next => exact hnone _
      rw [Tree.forestPruneEmpty]
      dsimp only
      rw [ofForest_append, hhere, ih hrest hrestChecks, ← ofForest_append, List.singleton_append]

/-! ## Marks of a source -/

theorem map_offset_ofLexemes {lexemes : List Lexeme}
    (hmarks : ∀ mark ∈ lexemes, mark.kind = .lineMark .directive →
      (parseOpening? (source.slice mark.span)).isSome) :
    (ofLexemes source lexemes).map (·.offset) =
      (lexemes.filter (·.kind == .lineMark .directive)).map (·.span.start) := by
  induction lexemes with
  | nil => rfl
  | cons mark rest ih =>
      obtain ⟨hmark, hrest⟩ := List.forall_mem_cons.mp hmarks
      rw [ofLexemes, List.map_append, ih hrest]
      by_cases hkind : mark.kind = .lineMark .directive
      · obtain ⟨opening, hopening⟩ := Option.isSome_iff_exists.mp (hmark hkind)
        simp [ofLine?, hkind, hopening]
      · simp [ofLine?, hkind]

end Directive

/-- Joining texts keeps every other lexeme. -/
theorem Lexeme.filter_coalesce {p : Lexeme → Bool}
    (htext : ∀ lexeme : Lexeme, lexeme.kind = .text → p lexeme = false)
    (lexemes : List Lexeme) : (coalesce lexemes).filter p = lexemes.filter p := by
  induction lexemes with
  | nil => rfl
  | cons first rest ih =>
      change (prepend first (coalesce rest)).filter p = _
      rw [List.filter_cons, ← ih]
      unfold prepend
      split
      next hcoalesce => rw [hcoalesce, List.filter_cons]
      next next tail hcoalesce =>
        rw [hcoalesce]
        split
        next hboth => simp [htext _ hboth.1, htext _ hboth.2, htext ⟨.text, _, _⟩ rfl]
        next => rw [List.filter_cons]

namespace Source

/-- There is a directive for every mark of one, in order. -/
theorem map_offset_directives (source : Source) :
    source.directives.map (·.offset) =
      (source.tokens.filter (·.kind == .lineMark .directive)).map (·.span.start) := by
  have hlexeme : ∀ token : Token, ((Lexeme.ofToken source token).kind == .lineMark .directive) =
      (token.kind == .lineMark .directive) := by
    intro token
    unfold Lexeme.ofToken
    dsimp only
    split
    next hkind => rw [hkind]; rfl
    next => rfl
  rw [directives, Directive.map_offset_ofLexemes fun _ => Directive.parseOpening?_isSome, lexemes,
    Lexeme.filter_coalesce fun lexeme hkind => by rw [hkind]; rfl, List.filter_map, List.map_map]
  simp only [Function.comp_def, hlexeme]
  rfl

/-- The directives lifted from a page that passes the check are those of its lines. -/
theorem directives_eq_ofForest {source : Source} {body : Forest}
    (hbody : Forest.ofLexemes source.lexemes = .ok body) (hcheck : body.check = .ok ()) :
    source.directives = Directive.ofForest source body.pruneEmpty.1 := by
  obtain ⟨hgrammatical, hspells⟩ :=
    (Forest.ofLexemes_eq_ok_iff source.isRaw_lexemes body).mp hbody
  have hchecked := Forest.checked_of_check hcheck
  rw [directives, Directive.ofLexemes_forest hgrammatical hchecked hspells, Forest.pruneEmpty,
    Directive.ofForest_pruneEmpty (Forest.built_ofLexemes hbody) hchecked]

end Source

end PageMarkup
