import PageMarkup.Proofs.Likeness.Pages
import PageMarkup.Proofs.Line.Texts
import PageMarkup.Proofs.Page.Blocks
import PageMarkup.Proofs.Page.Titled
import PageMarkup.Proofs.Page.Unlisted

/-! # Pages one after the other

Two texts without notes and headings can be put after each other with a blank line
between them. The newline before that line is the end of the first text, whatever it ends
there; the blank line is a newline at the root, and over that nothing reaches. So what the
whole page shows is what the first text shows and then what the second one shows.
-/

namespace PageMarkup

/-! ## What a forest shows -/

namespace Forest

/-- What a nested page without notes and headings shows. -/
def shown (registries : Registries) (forest : Forest) : String :=
  (Embed.resolveAll registries (Link.resolveExternals forest.lifted.arranged).1).1.lower.html

variable {registries : Registries}

theorem Like.shown {forest other : Forest} (hlike : Forest.Like .exact Likeness.exact.text forest other) :
    forest.shown registries = other.shown registries := by
  have hlinked := (Link.like_resolveExternals hlike.lifted.arranged).1
  have hembedded := (Embed.like_resolveAll (fun _ _ => .inr) (Embed.registered_shown registries)
    hlinked).1
  exact Forest.Like.html_eq (Tree.forestLike_lower hembedded)

theorem Like.check_eq_ok {L : Likeness} {C : String → String → Prop} {forest other : Forest}
    (hlike : Forest.Like L C forest other) (hcheck : forest.check = .ok ()) :
    other.check = .ok () := by
  obtain ⟨_, hother, -⟩ := hlike.check.exists_ok hcheck
  exact hother

/-- Lexemes that have only moved are nested alike. -/
theorem exists_moved {lexemes : List Lexeme} {forest : Forest}
    (hforest : ofLexemes lexemes = .ok forest) (distance : Nat) :
    ∃ moved, ofLexemes (lexemes.map (Lexeme.shift distance)) = .ok moved ∧
      Forest.Like .exact Likeness.exact.text forest moved := by
  have hlexemes := Lexeme.like_map (f := id) (g := Lexeme.shift distance) (fun _ => ⟨rfl, rfl⟩)
    lexemes
  rw [List.map_id] at hlexemes
  exact (Forest.like_ofLexemes hlexemes).exists_ok hforest

/-- Newlines at the root. -/
def AreNewlines (lexemes : List Lexeme) : Prop := ∀ lexeme ∈ lexemes, lexeme.kind = .newline

theorem AreNewlines.kinds {lexemes : List Lexeme} (hnewlines : AreNewlines lexemes) :
    ∀ lexeme ∈ lexemes, lexeme.kind = .text ∨ lexeme.kind = .newline :=
  fun lexeme hmem => .inr (hnewlines lexeme hmem)

theorem isNewline_leafOf {lexeme : Lexeme} (hkind : lexeme.kind = .newline) :
    isNewline (Nesting.leafOf lexeme) = true := by
  have hleaf : (Nesting.leafOf lexeme).kind = lexeme.kind := rfl
  simp [isNewline, hleaf, hkind]

/-- A newline at the root parts what is shown before it from what is shown after it. -/
theorem shown_append {newline : Lexeme} (hnewline : newline.kind = .newline)
    (first second : Forest) :
    shown registries (first ++ Nesting.leafOf newline :: second) =
      first.shown registries ++ second.shown registries := by
  have hkinds : ∀ lexeme ∈ [newline], lexeme.kind = .text ∨ lexeme.kind = .newline := by
    simp [hnewline]
  have hlifted : lifted [Nesting.leafOf newline] = [Nesting.leafOf newline] :=
    lifted_leaves hkinds
  unfold shown
  rw [lifted_append, lifted_cons, hlifted, List.singleton_append,
    arranged_append (isNewline_leafOf hnewline), Link.resolveExternals, Tree.forestExpand_append]
  simp only [Embed.resolveAll, Tree.forestExpand_append, lower, Tree.forestLower_append,
    html_append]
  rfl

theorem shown_append_newlines {newlines : List Lexeme} (hnewlines : AreNewlines newlines)
    (first : Forest) :
    shown registries (first ++ leaves newlines) = first.shown registries := by
  induction newlines generalizing first with
  | nil => rw [leaves, List.map_nil, List.append_nil]
  | cons newline rest ih =>
      obtain ⟨hnewline, hrest⟩ := List.forall_mem_cons.mp hnewlines
      have hnothing : shown registries [] = "" := rfl
      have hafter := ih hrest []
      rw [List.nil_append, hnothing] at hafter
      rw [leaves, List.map_cons, shown_append hnewline]
      exact (congrArg _ hafter).trans (String.append_empty ..)

theorem check_append {first second : Forest} (hfirst : first.check = .ok ())
    (hsecond : second.check = .ok ()) : check (first ++ second) = .ok () := by
  rw [check_eq_ok_iff_faults] at hfirst hsecond ⊢
  rw [Tree.forestFaults_append, hfirst, hsecond, List.append_nil]

end Forest

/-! ## The newline at the end -/

namespace Forest

/-- Two forests that differ only in newlines at their ends and in where their trees stand. -/
def SameShown (forest other : Forest) : Prop :=
  ∃ (first first' : Forest) (newlines newlines' : List Lexeme),
    forest = first ++ leaves newlines ∧ other = first' ++ leaves newlines' ∧
      AreNewlines newlines ∧ AreNewlines newlines' ∧
      Forest.Like .exact Likeness.exact.text first first'

variable {registries : Registries} {forest other : Forest}

theorem SameShown.shown (hsame : SameShown forest other) :
    forest.shown registries = other.shown registries := by
  obtain ⟨first, first', newlines, newlines', rfl, rfl, hnewlines, hnewlines', hlike⟩ := hsame
  rw [shown_append_newlines hnewlines, shown_append_newlines hnewlines', hlike.shown]

theorem SameShown.check (hsame : SameShown forest other) (hcheck : forest.check = .ok ()) :
    other.check = .ok () := by
  obtain ⟨first, first', newlines, newlines', rfl, rfl, -, hnewlines', hlike⟩ := hsame
  rw [check_eq_ok_iff_faults, Tree.forestFaults_append, List.append_eq_nil_iff] at hcheck
  exact check_append (hlike.check_eq_ok (check_eq_ok_iff_faults.mpr hcheck.1))
    (check_leaves hnewlines'.kinds)

/-- Whatever the last newline ends, another newline ends it as well. -/
theorem exists_sameShown {lexemes : List Lexeme} {newline newline' : Lexeme}
    (hkind : newline.kind = .newline) (hkind' : newline'.kind = .newline)
    (hforest : ofLexemes (lexemes ++ [newline]) = .ok forest) :
    ∃ other, ofLexemes (lexemes ++ [newline']) = .ok other ∧ SameShown forest other := by
  have hstate : Nesting.Like .exact Likeness.exact.text (lexemes.foldl Nesting.step {})
      (lexemes.foldl Nesting.step {}) := by
    have hlexemes := Lexeme.like_map (f := id) (g := id) (fun _ => ⟨rfl, rfl⟩) lexemes
    rw [List.map_id] at hlexemes
    exact Nesting.like_foldl hlexemes ⟨.nil, .nil⟩
  unfold ofLexemes at hforest ⊢
  rw [List.foldl_append, List.foldl_cons, List.foldl_nil] at hforest ⊢
  generalize lexemes.foldl Nesting.step {} = state at hforest hstate ⊢
  obtain ⟨pending, level⟩ := state
  obtain ⟨hpending, hlevel⟩ := hstate
  have hstarts : newline.kind.starts? = none := by rw [hkind]; rfl
  have hstarts' : newline'.kind.starts? = none := by rw [hkind']; rfl
  cases pending with
  | nil =>
      -- at the root the newline is a leaf of its own
      simp only [Nesting.step, Nesting.enter, hstarts, Nesting.finish, List.reverse_cons] at hforest
      cases hforest
      simp only [Nesting.step, Nesting.enter, hstarts', Nesting.finish, List.reverse_cons]
      exact ⟨_, rfl, level.reverse, level.reverse, [newline], [newline'], rfl, rfl,
        by simp [AreNewlines, hkind], by simp [AreNewlines, hkind'], hlevel.reverse⟩
  | cons innermost outer =>
      cases hpending with
      | cons hinnermost houter =>
          simp only [Nesting.step, Nesting.enter, hkind] at hforest
          simp only [Nesting.step, Nesting.enter, hkind']
          split at hforest
          next hends =>
            rw [if_pos hends]
            cases outer with
            | cons next rest => cases hforest
            | nil =>
                cases hforest
                refine ⟨_, rfl, _, _, [], [], (List.append_nil _).symm, (List.append_nil _).symm,
                  List.forall_mem_nil _, List.forall_mem_nil _, ?_⟩
                exact Forest.Like.reverse
                  (.cons (Nesting.like_close hinnermost False.elim hlevel.reverse) hinnermost.before)
          next => cases hforest

end Forest

/-! ## Texts without notes and headings -/

/-- Marks that begin neither a heading nor a reference to a note. -/
def Kind.Unlisting (kind : Kind) : Prop :=
  (∀ level, kind ≠ .styleMark (.heading level)) ∧ kind ≠ .bracketStart .noteRef

instance (kind : Kind) : Decidable kind.Unlisting :=
  match kind with
  | .styleMark (.heading level) => .isFalse fun hkind => hkind.1 level rfl
  | .bracketStart .noteRef => .isFalse fun hkind => hkind.2 rfl
  | .styleMark .em | .styleMark .bold | .styleMark .emBold | .styleMark .strikethrough
  | .bracketStart .externalLink | .bracketStart .embeddedFile
  | .bracketEnd _ | .lineMark _ | .documentRoot | .newline | .text | .backslash | .aggregate _
  | .paragraph | .container | .ready => .isTrue ⟨nofun, nofun⟩

/-- Nesting makes references and headings of their marks only. -/
theorem Tree.Grammatical.unlisted {tree : Tree} (htree : tree.Grammatical)
    (hmarks : ∀ mark ∈ tree.reading, mark.kind.Unlisting) : tree.Obeys Node.Unlisted := by
  induction htree with
  | leaf lexeme haggregate =>
      refine Tree.obeys_leafOf ⟨?_, ?_⟩
      · intro hkind
        rw [show lexeme.kind = _ from hkind] at haggregate
        cases haggregate
      · change lexeme.kind.headingLevel? = none
        rw [Kind.headingLevel?, haggregate, Option.bind_none]
  | aggregate aggregate opener closer children _ _ ih =>
      simp only [Tree.reading, Option.map_some, Option.toList_some, List.singleton_append,
        List.mem_append, List.mem_cons, List.not_mem_nil, or_false] at hmarks
      have hstart : aggregate.startedBy.Unlisting := hmarks _ (.inl (.inl rfl))
      refine Tree.obeys_node.mpr ⟨⟨?_, ?_⟩, Forest.obeys_iff.mpr fun child hchild => ?_⟩
      · rintro ⟨⟩
        exact hstart.2 rfl
      · change aggregate.headingLevel? = none
        cases hlevel : aggregate.headingLevel? with
        | none => rfl
        | some level =>
            obtain rfl : aggregate = .style (.heading level) := by
              unfold Aggregate.headingLevel? at hlevel
              split at hlevel <;> cases hlevel
              rfl
            exact absurd rfl (hstart.1 level)
      · refine ih child hchild fun mark hmark => hmarks mark (.inl (.inr ?_))
        rw [Tree.forestReading_eq_flatMap]
        exact List.mem_flatMap.mpr ⟨child, hchild, hmark⟩

namespace Forest

theorem unlisted_of_spells {forest : Forest} (hforest : forest.Grammatical)
    {lexemes : List Lexeme} (hspells : forest.Spells lexemes)
    (hlexemes : ∀ lexeme ∈ lexemes, lexeme.kind.Unlisting) : forest.Obeys Node.Unlisted := by
  refine obeys_iff.mpr fun tree htree => (hforest tree htree).unlisted fun mark hmark => ?_
  have hmem : mark ∈ forest.reading := by
    rw [reading, Tree.forestReading_eq_flatMap]
    exact List.mem_flatMap.mpr ⟨tree, htree, hmark⟩
  have hmarks : (mark.kind, mark.span) ∈ lexemes.map fun lexeme => (lexeme.kind, lexeme.span) :=
    hspells.kinds_and_spans ▸ List.mem_map_of_mem hmem
  obtain ⟨lexeme, hlexeme, heq⟩ := List.mem_map.mp hmarks
  have hkind : lexeme.kind = mark.kind := congrArg Prod.fst heq
  exact hkind ▸ hlexemes lexeme hlexeme

theorem Obeys.lifted {rule : Rule} (hrule : rule.Stable) {forest : Forest}
    (hforest : forest.Obeys rule) : forest.lifted.Obeys rule :=
  Obeys.subset (Tree.forestObeys_pruneEmpty @hrule.fewer hforest) List.filter_sublist.subset

end Forest

namespace Source

theorem unlisting_lexemes {source : Source}
    (htokens : ∀ token ∈ source.tokens, token.kind.Unlisting) :
    ∀ lexeme ∈ source.lexemes, lexeme.kind.Unlisting := by
  intro lexeme hmem
  by_cases htext : lexeme.kind = .text
  · rw [htext]
    exact ⟨nofun, nofun⟩
  · obtain ⟨token, htoken, rfl⟩ := List.mem_map.mp (Lexeme.mem_of_mem_coalesce htext hmem)
    have hkind : (Lexeme.ofToken source token).kind = token.kind := by
      rw [Lexeme.ofToken] at htext ⊢
      split
      next hbackslash => exact absurd (if_pos hbackslash) htext
      next => rfl
    rw [hkind]
    exact htokens token htoken

variable {rest : List String} {ending : String}

/-- What stands after the title line is nested as if it stood alone. -/
theorem nested_titled (hending : isNewline ending = true) {forest : Forest}
    (hforest : Forest.ofLexemes (ofClusters rest).lexemes = .ok forest) :
    ∃ moved, Forest.ofLexemes (ofClusters (titleLine ++ ending :: rest)).lexemes =
        .ok (Tree.title :: moved) ∧
      Forest.ofLexemes ((ofClusters rest).lexemes.map (Lexeme.shift 9)) = .ok moved ∧
      Forest.Like .exact Likeness.exact.text forest moved := by
  obtain ⟨moved, hmoved, hlike⟩ := Forest.exists_moved hforest 9
  refine ⟨moved, ?_, hmoved, hlike⟩
  rw [lexemes_titled _ hending, Forest.ofLexemes_titled, hmoved]
  rfl

/-- The HTML of a page with a title line is what the rest of it shows. -/
theorem html_titled {registries : Registries} (hending : isNewline ending = true)
    (hrest : ∀ lexeme ∈ (ofClusters rest).lexemes, lexeme.kind.Unlisting) {forest : Forest}
    (hforest : Forest.ofLexemes (ofClusters rest).lexemes = .ok forest) {document : Document}
    (hdocument : ((ofClusters (titleLine ++ ending :: rest)).compile registries).2 =
      .ok document) : document.html = forest.shown registries := by
  obtain ⟨moved, hnested, hmoved, hlike⟩ := nested_titled hending hforest
  obtain ⟨found, hfound, -, -, hpresented⟩ := compile_presents hdocument
  have hbody := Forest.body_eq_lifted hnested
  rw [hnested] at hfound
  cases hfound
  rw [Forest.lifted_titled] at hbody
  have hraw : ∀ lexeme ∈ (ofClusters rest).lexemes.map (Lexeme.shift 9), lexeme.IsRaw := by
    intro lexeme hmem
    obtain ⟨original, horiginal, rfl⟩ := List.mem_map.mp hmem
    exact isRaw_lexemes _ original horiginal
  have hunlisting : ∀ lexeme ∈ (ofClusters rest).lexemes.map (Lexeme.shift 9),
      lexeme.kind.Unlisting := by
    intro lexeme hmem
    obtain ⟨original, horiginal, rfl⟩ := List.mem_map.mp hmem
    exact hrest original horiginal
  obtain ⟨hgrammatical, hspells⟩ := (Forest.ofLexemes_eq_ok_iff hraw moved).mp hmoved
  have hunlisted := Forest.unlisted_of_spells hgrammatical hspells hunlisting
  rw [hbody, Forest.presented_of_unlisted _ _ (hunlisted.lifted Node.stable_unlisted)] at hpresented
  have hbody : _ = document.body := congrArg Prod.fst hpresented
  rw [hlike.shown, Document.html, ← hbody]
  rfl

/-- A page with a title line is accepted just if the rest of it is nested and passes the
check. -/
theorem accepted_titled (registries : Registries) (hending : isNewline ending = true) :
    (∃ document, ((ofClusters (titleLine ++ ending :: rest)).compile registries).2 =
      .ok document) ↔
    ∃ forest, Forest.ofLexemes (ofClusters rest).lexemes = .ok forest ∧ forest.check = .ok () := by
  constructor
  · rintro ⟨document, hdocument⟩
    obtain ⟨found, hfound, hcheck, -⟩ := compile_presents hdocument
    rw [lexemes_titled _ hending, Forest.ofLexemes_titled] at hfound
    have hlexemes := Lexeme.like_map (f := Lexeme.shift 9) (g := id) (fun _ => ⟨rfl, rfl⟩)
      (ofClusters rest).lexemes
    rw [List.map_id] at hlexemes
    have houtcome := Forest.like_ofLexemes (C := Likeness.exact.text) hlexemes
    cases hmoved : Forest.ofLexemes ((ofClusters rest).lexemes.map (Lexeme.shift 9)) with
    | error fault =>
        rw [hmoved] at hfound
        cases hfound
    | ok moved =>
        rw [hmoved] at hfound
        cases hfound
        rw [Forest.check_titled] at hcheck
        obtain ⟨forest, hforest, hlike⟩ := houtcome.exists_ok hmoved
        exact ⟨forest, hforest, hlike.check_eq_ok hcheck⟩
  · rintro ⟨forest, hforest, hcheck⟩
    obtain ⟨moved, hnested, -, hlike⟩ := nested_titled hending hforest
    have hchecked : Forest.check (Tree.title :: moved) = .ok () := by
      rw [Forest.check_titled, hlike.check_eq_ok hcheck]
    have htitled : Directive.named "title"
        (ofClusters (titleLine ++ ending :: rest)).directives ≠ [] := by
      rw [directives_titled _ hending]
      exact List.cons_ne_nil _ _
    obtain ⟨final, document, hrun, hfinish⟩ :=
      Draft.exists_document registries hnested hchecked htitled
    have hsome : ¬(ofClusters (titleLine ++ ending :: rest)).isEmpty := by
      simp [isEmpty, ofClusters]
    refine ⟨document, ?_⟩
    rw [compile_outcome hsome, hnested, Except.bind, hrun]
    exact hfinish

/-! ## The seam -/

variable {line first second : List String} {blank : String}

/-- The lexemes of two texts with a blank line between them. A carriage return at the end
of the first text goes with the newline after it. -/
theorem lexemes_seam (second : List String) (hfirst : first = line ∨ first = line ++ ["\r"])
    (hending : isNewline ending = true) (hblank : isNewline blank = true) :
    ∃ (last ended parting : Lexeme) (distance : Nat),
      last.kind = .newline ∧ ended.kind = .newline ∧ parting.kind = .newline ∧
      (ofClusters first).lexemes = (ofClusters line).openLexemes ++ [last] ∧
      (ofClusters (line ++ ending :: blank :: second)).lexemes =
        ((ofClusters line).openLexemes ++ [ended]) ++
          parting :: (ofClusters second).lexemes.map (Lexeme.shift distance) := by
  have hopen : (ofClusters first).openLexemes = (ofClusters line).openLexemes := by
    rcases hfirst with rfl | rfl
    · rfl
    · exact openLexemes_carriageReturn line
  have hrest := lexemes_line [] second hblank
  have hnothing : (ofClusters []).openLexemes = [] := rfl
  rw [hnothing, List.nil_append, List.nil_append] at hrest
  have hmoved : Lexeme.shift (line.length + 1) ∘ Lexeme.shift 1 =
      Lexeme.shift (1 + (line.length + 1)) := by
    funext lexeme
    simp [Lexeme.shift, Span.shift, Nat.add_assoc]
  refine ⟨⟨.newline, ⟨(ofClusters first).length, (ofClusters first).length + 1⟩, "\n"⟩,
    ⟨.newline, ⟨line.length, line.length + 1⟩, ending⟩,
    Lexeme.shift (line.length + 1) ⟨.newline, ⟨0, 1⟩, blank⟩, 1 + (line.length + 1), rfl, rfl, rfl,
    hopen ▸ lexemes_eq _, ?_⟩
  rw [lexemes_line line (blank :: second) hending, hrest, List.map_cons, List.length_nil,
    List.map_map, hmoved, List.append_assoc, List.singleton_append]

theorem unlisting_seam (hfirst : first = line ∨ first = line ++ ["\r"])
    (hending : isNewline ending = true) (hblank : isNewline blank = true)
    (hlexemes : ∀ lexeme ∈ (ofClusters first).lexemes, lexeme.kind.Unlisting)
    (hlexemes' : ∀ lexeme ∈ (ofClusters second).lexemes, lexeme.kind.Unlisting) :
    ∀ lexeme ∈ (ofClusters (line ++ ending :: blank :: second)).lexemes,
      lexeme.kind.Unlisting := by
  obtain ⟨last, ended, parting, distance, -, hended, hparting, hopen, hwhole⟩ :=
    lexemes_seam second hfirst hending hblank
  have hnewline : Kind.Unlisting .newline := ⟨nofun, nofun⟩
  intro lexeme hmem
  rw [hwhole] at hmem
  simp only [List.mem_append, List.mem_cons, List.not_mem_nil, or_false, List.mem_map] at hmem
  rcases hmem with (hmem | rfl) | rfl | ⟨original, hmem, rfl⟩
  · exact hlexemes lexeme (hopen ▸ List.mem_append_left _ hmem)
  · exact hended ▸ hnewline
  · exact hparting ▸ hnewline
  · exact hlexemes' original hmem

/-- Texts that are nested and pass the check do so together, and show what each shows. -/
theorem nested_seam (registries : Registries) (hfirst : first = line ∨ first = line ++ ["\r"])
    (hending : isNewline ending = true) (hblank : isNewline blank = true) {forest other : Forest}
    (hforest : Forest.ofLexemes (ofClusters first).lexemes = .ok forest)
    (hcheck : forest.check = .ok ())
    (hother : Forest.ofLexemes (ofClusters second).lexemes = .ok other)
    (hcheck' : other.check = .ok ()) :
    ∃ whole, Forest.ofLexemes (ofClusters (line ++ ending :: blank :: second)).lexemes =
        .ok whole ∧ whole.check = .ok () ∧
      whole.shown registries = forest.shown registries ++ other.shown registries := by
  obtain ⟨last, ended, parting, distance, hlast, hended, hparting, hlexemes, hwhole⟩ :=
    lexemes_seam second hfirst hending hblank
  rw [hlexemes] at hforest
  obtain ⟨closed, hclosed, hsame⟩ := Forest.exists_sameShown hlast hended hforest
  obtain ⟨moved, hmoved, hlike⟩ := Forest.exists_moved hother distance
  have hleaf : Forest.ofLexemes [parting] = .ok (Forest.leaves [parting]) :=
    Forest.ofLexemes_leaves (by simp [hparting, Kind.starts?])
  have hleafKind : ∀ lexeme ∈ [parting], lexeme.kind = .text ∨ lexeme.kind = .newline := by
    simp [hparting]
  refine ⟨closed ++ Nesting.leafOf parting :: moved, ?_, ?_, ?_⟩
  · rw [hwhole, Forest.ofLexemes_append hclosed, ← List.singleton_append,
      Forest.ofLexemes_append hleaf, hmoved]
    rfl
  · exact Forest.check_append (hsame.check hcheck)
      (Forest.check_append (Forest.check_leaves hleafKind) (hlike.check_eq_ok hcheck'))
  · rw [Forest.shown_append hparting, hsame.shown, hlike.shown]

end Source

/-! ## Texts -/

/-- No heading is written in the text and no note is referred to. -/
def Text.Unlisting (text : String) : Prop :=
  ∀ token ∈ (Source.ofText text).tokens, token.kind.Unlisting

instance (text : String) : Decidable (Text.Unlisting text) := List.decidableBAll _ _

theorem Source.clusters_titled :
    ∃ ending, isNewline ending = true ∧
      ∀ rest, Text.clusters ("!title T\n" ++ rest) = titleLine ++ ending :: Text.clusters rest := by
  obtain ⟨line, ending, hending, hclusters, hline⟩ := clusters_line "!title T"
  have htitle : Text.clusters "!title T" = titleLine := by decide +kernel
  rw [htitle] at hline
  obtain rfl : titleLine = line := by
    rcases hline with hline | hline
    · exact hline
    · have hlast : titleLine.getLast? = some "\r" := by rw [hline, List.getLast?_concat]
      exact absurd hlast (by decide)
  exact ⟨ending, hending, hclusters⟩

/-- Two pages with a title line, neither notes nor headings in them, can be made one page
with a blank line between them: it is accepted and shows the one and then the other. -/
theorem compilePage_seam {first second : String} (hfirst : Text.Unlisting first)
    (hsecond : Text.Unlisting second) {file : Option String} {registries : Registries}
    {document other : Document}
    (hdocument : (compilePage ("!title T\n" ++ first) file registries).outcome = .ok document)
    (hother : (compilePage ("!title T\n" ++ second) file registries).outcome = .ok other) :
    ∃ whole, (compilePage ("!title T\n" ++ (first ++ "\n\n" ++ second)) file registries).outcome =
        .ok whole ∧ whole.html = document.html ++ other.html := by
  obtain ⟨ending, hending, htitled⟩ := Source.clusters_titled
  obtain ⟨line, closing, hclosing, hline, hcut⟩ := Source.clusters_line first
  obtain ⟨empty, blank, hblank, hempty, hnothing⟩ := Source.clusters_line ""
  obtain rfl : empty = [] := by
    rcases hnothing with hnothing | hnothing
    · exact hnothing.symm
    · simp at hnothing
  have hwhole : Text.clusters (first ++ "\n\n" ++ second) =
      line ++ closing :: blank :: Text.clusters second := by
    have hblankLine := hempty second
    rw [List.nil_append, String.empty_append] at hblankLine
    have hnewlines : "\n\n" = "\n" ++ "\n" := rfl
    rw [← hblankLine, ← hline, hnewlines]
    simp only [String.append_assoc]
  have hlexemes := Source.unlisting_lexemes hfirst
  have hlexemes' := Source.unlisting_lexemes hsecond
  have hdocument := compile_of_outcome hdocument
  have hother := compile_of_outcome hother
  rw [Source.ofText_eq, htitled] at hdocument hother
  -- both texts are nested and checked on their own, so they are together
  obtain ⟨forest, hforest, hcheck⟩ := (Source.accepted_titled registries hending).mp ⟨document, hdocument⟩
  obtain ⟨forest', hforest', hcheck'⟩ := (Source.accepted_titled registries hending).mp ⟨other, hother⟩
  obtain ⟨nested, hnested, hchecked, hshown⟩ := Source.nested_seam registries hcut
    hclosing hblank hforest hcheck hforest' hcheck'
  obtain ⟨whole, hcompiled⟩ :=
    (Source.accepted_titled registries hending).mpr ⟨nested, hnested, hchecked⟩
  refine ⟨whole, outcome_of_ok ?_, ?_⟩
  · rw [Source.ofText_eq, htitled, hwhole, hcompiled]
  · have hunlisting := Source.unlisting_seam hcut hclosing hblank hlexemes hlexemes'
    rw [Source.html_titled hending hunlisting hnested hcompiled, hshown,
      Source.html_titled hending hlexemes hforest hdocument,
      Source.html_titled hending hlexemes' hforest' hother]

/-- Two quotes, the first with a carriage return at its end: they are not merged. -/
theorem compilePage_seam_quotes :
    Text.Unlisting ">*q*\r" ∧ Text.Unlisting ">r\x7d" ∧
      ∃ document other whole,
        (compilePage ("!title T\n" ++ ">*q*\r") none Registries.empty).outcome = .ok document ∧
        (compilePage ("!title T\n" ++ ">r\x7d") none Registries.empty).outcome = .ok other ∧
        (compilePage ("!title T\n" ++ (">*q*\r" ++ "\n\n" ++ ">r\x7d")) none Registries.empty).outcome =
          .ok whole ∧ whole.html = document.html ++ other.html := by
  have hfirst : Text.Unlisting ">*q*\r" := by decide +kernel
  have hsecond : Text.Unlisting ">r\x7d" := by decide +kernel
  have hshort : (compilePage ("!title T\n" ++ ">*q*\r") none Registries.empty).succeeded = true := by
    decide +kernel
  have hshort' : (compilePage ("!title T\n" ++ ">r\x7d") none Registries.empty).succeeded = true := by
    decide +kernel
  obtain ⟨document, hdocument⟩ := Compilation.exists_document hshort
  obtain ⟨other, hother⟩ := Compilation.exists_document hshort'
  obtain ⟨whole, hwhole, hhtml⟩ := compilePage_seam hfirst hsecond hdocument hother
  exact ⟨hfirst, hsecond, document, other, whole, hdocument, hother, hwhole, hhtml⟩

end PageMarkup
