import PageMarkup.Proofs.Line.Texts
import PageMarkup.Proofs.Likeness.Pages

/-! # Lines that mean nothing

A line that is an unknown directive can be put before any line of a page. The forest of
the page then has one more tree at its root, which goes as soon as directives are lifted;
what stands after it has only moved. So the page shows the same, and one more directive
is left at the end.
-/

namespace PageMarkup

open Node

/-! ## The tree of a directive -/

namespace Forest

/-- A list is cut at the first newline in one way only. -/
theorem line_unique {first second : List Lexeme} {closer closer' : Lexeme}
    {rest rest' : List Lexeme} (hfirst : ∀ lexeme ∈ first, lexeme.kind ≠ .newline)
    (hsecond : ∀ lexeme ∈ second, lexeme.kind ≠ .newline) (hcloser : closer.kind = .newline)
    (hcloser' : closer'.kind = .newline)
    (heq : first ++ closer :: rest = second ++ closer' :: rest') :
    first = second ∧ closer = closer' ∧ rest = rest' := by
  induction first generalizing second with
  | nil =>
      cases second with
      | nil =>
          obtain ⟨hclosers, hrests⟩ := List.cons.inj heq
          exact ⟨rfl, hclosers, hrests⟩
      | cons lexeme second =>
          obtain ⟨rfl, -⟩ := List.cons.inj heq
          exact absurd hcloser (hsecond _ List.mem_cons_self)
  | cons lexeme first ih =>
      cases second with
      | nil =>
          obtain ⟨rfl, -⟩ := List.cons.inj heq
          exact absurd hcloser' (hfirst _ List.mem_cons_self)
      | cons other second =>
          obtain ⟨rfl, htails⟩ := List.cons.inj heq
          obtain ⟨rfl, hclosers, hrests⟩ := ih (List.forall_mem_cons.mp hfirst).2
            (List.forall_mem_cons.mp hsecond).2 htails
          exact ⟨rfl, hclosers, hrests⟩

/-- The mark of a directive begins a tree at the root, which ends with the line. -/
theorem split_at_directive {forest : Forest} (hforest : forest.Grammatical)
    (hchecked : forest.Obeys Checked) {before line rest : List Lexeme} {mark closer : Lexeme}
    (hmark : mark.kind = .lineMark .directive) (hline : ∀ lexeme ∈ line, lexeme.kind ≠ .newline)
    (hcloser : closer.kind = .newline)
    (hspells : forest.Spells (before ++ mark :: line ++ closer :: rest)) :
    ∃ (first : Forest) (tree : Tree) (last : Forest), forest = first ++ tree :: last ∧
      tree.kind = .aggregate (.line .directive) ∧ first.Spells before ∧ last.Spells rest := by
  rw [List.append_assoc] at hspells
  induction forest generalizing before with
  | nil =>
      have hlength := hspells.length_eq
      simp [reading, Tree.forestReading] at hlength
  | cons tree others ih =>
      obtain ⟨htree, hothers⟩ := List.forall_mem_cons.mp hforest
      obtain ⟨hobeys, hobeys'⟩ := obeys_cons.mp hchecked
      unfold Spells reading at hspells
      rw [Tree.forestReading] at hspells
      obtain ⟨own, more, heq, hown, hmore⟩ := matches_append hspells
      have hsingle : Forest.Spells [tree] own := by
        unfold Spells reading
        rwa [Tree.forestReading, Tree.forestReading, List.append_nil]
      -- what the first tree spells ends before the mark, or the mark stands in it
      rcases List.append_eq_append_iff.mp heq with ⟨gap, rfl, hgap⟩ | ⟨gap, rfl, hgap⟩
      · cases gap with
        | nil =>
            obtain ⟨first, found, last, rfl, hkind, hfirst, hlast⟩ :=
              ih hothers hobeys' (hgap ▸ hmore : Forest.Spells others ([] ++ _))
            have hspelled := hsingle.append hfirst
            rw [List.append_nil, List.append_nil] at hspelled
            exact ⟨tree :: first, found, last, rfl, hkind, hspelled, hlast⟩
        | cons first gap =>
            rw [List.cons_append, List.cons_append] at hgap
            obtain ⟨rfl, htails⟩ := List.cons.inj hgap
            have hkind : tree.kind = .aggregate (.line .directive) := by
              by_contra hne
              obtain ⟨found, hfound, hmatches⟩ := exists_mark_of_mem hown
                (List.mem_append_right before (List.mem_cons_self (a := mark)))
              exact htree.noDirective hobeys hne found hfound (hmatches.1.trans hmark)
            obtain ⟨opener, inner, last, -, hparts, -, -, -, -, hinner, hplain, hlast⟩ :=
              htree.exists_line hobeys hkind hown
            cases before with
            | nil =>
                rw [List.nil_append, List.cons_append] at hparts
                obtain ⟨rfl, rfl⟩ := List.cons.inj hparts
                rw [List.append_assoc, List.singleton_append] at htails
                obtain ⟨-, -, rfl⟩ := line_unique hline hinner hcloser hlast htails
                exact ⟨[], tree, others, rfl, hkind, spells_nil, hmore⟩
            | cons lexeme before =>
                rw [List.cons_append, List.cons_append] at hparts
                obtain ⟨-, hparts⟩ := List.cons.inj hparts
                have hmem : mark ∈ inner ++ [last] := hparts ▸ by simp
                rcases List.mem_append.mp hmem with hmem | hmem
                · exact absurd hmark (hplain mark hmem)
                · rw [List.mem_singleton.mp hmem, hlast] at hmark
                  cases hmark
      · obtain ⟨first, found, last, rfl, hkind, hfirst, hlast⟩ := ih hothers hobeys' (hgap ▸ hmore)
        exact ⟨tree :: first, found, last, rfl, hkind, hsingle.append hfirst, hlast⟩

end Forest

/-! ## The page without the line -/

namespace Source

variable {front line rest : List String} {mark : Lexeme} {others : List Lexeme}
  {directive : Directive} {ending : String}

/-- A directive line gives a tree at the root, and the other trees have only moved. -/
theorem like_of_inserted {C : String → String → Prop} (hfront : EndsLine front)
    (hline : DirectiveLine line mark others directive) (hending : isNewline ending = true)
    {forest forest' : Forest}
    (hforest : Forest.ofLexemes (ofClusters (front ++ rest)).lexemes = .ok forest)
    (hforest' : Forest.ofLexemes (ofClusters (front ++ (line ++ ending :: rest))).lexemes =
      .ok forest') (hcheck : forest'.check = .ok ()) :
    ∃ (first : Forest) (tree : Tree) (last : Forest), forest' = first ++ tree :: last ∧
      tree.kind = .aggregate (.line .directive) ∧ Forest.Like .exact C forest (first ++ last) := by
  obtain ⟨before, hbefore⟩ := lexemes_front hfront
  obtain ⟨hgrammatical, hspells⟩ := (Forest.ofLexemes_eq_ok_iff (isRaw_lexemes _) _).mp hforest'
  have hchecked := Forest.checked_of_check hcheck
  have hothers : ∀ lexeme ∈ others.map (Lexeme.shift front.length), lexeme.kind ≠ .newline := by
    intro lexeme hmem
    obtain ⟨other, hother, rfl⟩ := List.mem_map.mp hmem
    exact hline.unbroken other hother
  have hmark : (mark.shift front.length).kind = .lineMark .directive := hline.kind
  have hcloser : (Lexeme.shift front.length ⟨.newline, ⟨line.length, line.length + 1⟩, ending⟩).kind =
      .newline := rfl
  rw [hbefore, lexemes_line line rest hending, hline.lexemes, List.map_append, List.map_cons,
    List.map_cons] at hspells
  obtain ⟨first, tree, last, rfl, hkind, hfirst, hlast⟩ := Forest.split_at_directive hgrammatical
    hchecked hmark hothers hcloser (by simpa using hspells)
  refine ⟨first, tree, last, rfl, hkind, ?_⟩
  -- the other trees are what nesting makes of the other lexemes
  have hkept : Forest.Grammatical (first ++ last) := by
    intro tree hmem
    apply hgrammatical
    rcases List.mem_append.mp hmem with hmem | hmem <;> simp [hmem]
  have hnested := Forest.ofLexemes_of_grammatical hkept (hfirst.append hlast)
  have hlexemes : List.Forall₂ (Lexeme.Like .exact)
      (before ++ (ofClusters rest).lexemes.map (Lexeme.shift front.length))
      (before ++ (ofClusters rest).lexemes.map
        (Lexeme.shift front.length ∘ Lexeme.shift (line.length + 1))) := by
    have hmoved := Lexeme.like_map (f := Lexeme.shift front.length)
      (g := Lexeme.shift front.length ∘ Lexeme.shift (line.length + 1)) (fun _ => ⟨rfl, rfl⟩)
      (ofClusters rest).lexemes
    exact List.rel_append
      (List.forall₂_same.mpr fun _ _ => ⟨rfl, rfl, fun _ => rfl, nofun⟩) hmoved
  have houtcome : Fault.Outcome .exact (Forest.Like .exact C) _ _ := Forest.like_ofLexemes hlexemes
  rw [← hbefore, hforest, hnested] at houtcome
  cases houtcome with
  | ok hlike => exact hlike

end Source

/-! ## Metadata -/

/-- The same arguments under every name that means something give the same metadata. -/
theorem Document.Accounts.congr {registries : Registries} {directives directives' : List Directive}
    {document other : Document} (haccounts : document.Accounts registries directives)
    (hother : other.Accounts registries directives')
    (hsame : ∀ name ∈ Directive.knownNames,
      (Directive.named name directives).map (·.argument) =
        (Directive.named name directives').map (·.argument)) :
    other.titleHtml = document.titleHtml ∧ other.contributors = document.contributors ∧
      other.flags = document.flags ∧ other.commands = document.commands := by
  have hflags : other.flags = document.flags := by
    have hflag : ∀ flag : Flag, other.flags.isOn flag = document.flags.isOn flag := by
      intro flag
      have hany : ∀ list : List Directive, list.any (·.name == flag.directive) =
          !((Directive.named flag.directive list).map (·.argument)).isEmpty := by
        intro list
        rw [Bool.eq_iff_iff]
        simp [Directive.named]
      have hname : flag.directive ∈ Directive.knownNames := by cases flag <;> decide
      rw [haccounts.flags, hother.flags, hany, hany, hsame _ hname]
    have hcenter := hflag .centerTitle
    have hblue := hflag .makeBlueRed
    have hindex := hflag .noSearchIndex
    have hedit := hflag .noEdit
    simp only [PageFlags.isOn] at hcenter hblue hindex hedit
    rw [PageFlags.mk.injEq]
    exact ⟨hcenter, hindex, hedit, hblue⟩
  refine ⟨?_, ?_, hflags, ?_⟩
  · obtain ⟨first, hfirst, -, htitle⟩ := haccounts.title
    obtain ⟨first', hfirst', -, htitle'⟩ := hother.title
    have hargument := congrArg List.head? (hsame "title" (by decide))
    rw [List.head?_map, List.head?_map, hfirst, hfirst'] at hargument
    have hargument : first.argument = first'.argument := Option.some.inj hargument
    rw [Document.titleHtml, Document.titleHtml, htitle, htitle', hflags]
    simp [PageTitle.ofDirective, Tree.html, Tree.leaf, Tree.pieces, Html.frame, hargument]
  · have hcredited : ∀ list : List Directive, Contributor.credited registries list =
        (list.map (·.argument)).filterMap registries.contributor? := by
      intro list
      rw [List.filterMap_map]
      rfl
    rw [haccounts.contributors, hother.contributors, hcredited, hcredited,
      hsame "contributor" (by decide)]
  · have hcommands : ∀ list : List Directive,
        list.map (fun command => Text.lower (Text.trim command.argument)) =
          (list.map (·.argument)).map fun argument => Text.lower (Text.trim argument) := by
      intro list
      rw [List.map_map]
      rfl
    rw [haccounts.commands, hother.commands, hcommands, hcommands, hsame "command" (by decide)]

/-! ## A page with one more directive -/

namespace Directive

theorem named_append (name : String) (first second : List Directive) :
    named name (first ++ second) = named name first ++ named name second := List.filter_append ..

theorem named_shift (name : String) (distance : Nat) (directives : List Directive) :
    named name (directives.map (shift distance)) = (named name directives).map (shift distance) :=
  List.filter_map

theorem unknown_shift (distance : Nat) (directives : List Directive) :
    unknown (directives.map (shift distance)) = (unknown directives).map (shift distance) :=
  List.filter_map

theorem named_cons_unknown {name : String} (hname : name ∈ knownNames) {directive : Directive}
    (hunknown : directive.name ∉ knownNames) (rest : List Directive) :
    named name (directive :: rest) = named name rest := by
  refine List.filter_cons_of_neg ?_
  simp only [beq_iff_eq]
  rintro rfl
  exact hunknown hname

/-- Directives that have only moved say the same. -/
theorem like_shift (directives : List Directive) (distance distance' : Nat) :
    List.Forall₂ (Directive.Like .exact) (directives.map (shift distance))
      ((directives.map (shift distance')).map (shift distance)) := by
  induction directives with
  | nil => exact .nil
  | cons directive rest ih => exact .cons ⟨rfl, rfl, rfl, rfl, nofun⟩ ih

end Directive

namespace Source

variable {front line rest : List String} {mark : Lexeme} {others : List Lexeme}
  {directive : Directive} {ending : String}

/-- A page with an unknown directive line more shows the same, and has that directive left. -/
theorem compile_inserted (hfront : EndsLine front)
    (hline : DirectiveLine line mark others directive)
    (hunknown : directive.name ∉ Directive.knownNames) (hending : isNewline ending = true)
    {registries : Registries} {document other : Document}
    (hdocument : ((ofClusters (front ++ rest)).compile registries).2 = .ok document)
    (hother : ((ofClusters (front ++ (line ++ ending :: rest))).compile registries).2 =
      .ok other) :
    other.html = document.html ∧ other.titleHtml = document.titleHtml ∧
      other.headings = document.headings ∧ other.contributors = document.contributors ∧
      other.flags = document.flags ∧ other.commands = document.commands ∧
      ∃ earlier later, document.unresolved.directives = earlier ++ later ∧
        other.unresolved.directives = earlier ++ directive.shift front.length ::
          later.map (Directive.shift (line.length + 1)) := by
  obtain ⟨forest, hforest, hcheck, haccounts, hpresented⟩ := compile_presents hdocument
  obtain ⟨forest', hforest', hcheck', haccounts', hpresented'⟩ := compile_presents hother
  obtain ⟨earlier, hearlier⟩ := directives_front hfront
  have hdirectives := hearlier (line ++ ending :: rest)
  rw [directives_line line rest hending, hline.directives, List.singleton_append,
    List.map_cons] at hdirectives
  have hshifted : (directive.shift front.length).name ∉ Directive.knownNames := hunknown
  -- the bodies differ by the tree of the line only, which is lifted
  obtain ⟨first, tree, last, rfl, hkind, hlike⟩ :=
    like_of_inserted (C := Likeness.exact.text) hfront hline hending hforest hforest' hcheck'
  have hbodies : Forest.Like .exact Likeness.exact.text
      (Directive.body (ofClusters (front ++ rest)) forest.pruneEmpty.1)
      (Directive.body (ofClusters (front ++ (line ++ ending :: rest)))
        (Forest.pruneEmpty (first ++ tree :: last)).1) := by
    have hlifted := hlike.lifted
    rw [Forest.lifted_append] at hlifted
    rwa [Forest.body_eq_lifted hforest, Forest.body_eq_lifted hforest', Forest.lifted_append,
      Forest.lifted_cons, Forest.lifted_directive hkind, List.nil_append]
  have hdefinitions : List.Forall₂ (Directive.Like .exact)
      (Directive.named Directive.noteName (ofClusters (front ++ rest)).directives)
      (Directive.named Directive.noteName
        (ofClusters (front ++ (line ++ ending :: rest))).directives) := by
    rw [hearlier, hdirectives, Directive.named_append, Directive.named_append,
      Directive.named_cons_unknown (by decide) hshifted, Directive.named_shift,
      Directive.named_shift, Directive.named_shift]
    exact List.rel_append (List.forall₂_same.mpr fun _ _ => ⟨rfl, rfl, rfl, rfl, nofun⟩)
      (Directive.like_shift _ _ _)
  have hsame : ∀ name ∈ Directive.knownNames,
      (Directive.named name (ofClusters (front ++ rest)).directives).map (·.argument) =
        (Directive.named name
          (ofClusters (front ++ (line ++ ending :: rest))).directives).map (·.argument) := by
    intro name hname
    rw [hearlier, hdirectives, Directive.named_append, Directive.named_append,
      Directive.named_cons_unknown hname hshifted, Directive.named_shift, Directive.named_shift,
      Directive.named_shift]
    simp [Directive.shift, Function.comp_def]
  obtain ⟨hshown, hheadings⟩ :=
    hbodies.presented (fun _ _ => .inr) (fun _ _ => id) (Embed.registered_shown registries)
      hdefinitions (Forest.plainName_body hforest hcheck)
  rw [hpresented, hpresented'] at hshown hheadings
  obtain ⟨htitle, hcontributors, hflags, hcommands⟩ := haccounts.congr haccounts' hsame
  refine ⟨hshown.html_eq.symm, htitle, (Heading.eq_of_exact hheadings).symm, hcontributors, hflags,
    hcommands, Directive.unknown earlier,
    (Directive.unknown (ofClusters rest).directives).map (Directive.shift front.length), ?_, ?_⟩
  · rw [haccounts.unresolved, hearlier, Directive.unknown, List.filter_append]
    exact congrArg _ (Directive.unknown_shift _ _)
  · have hmoved : ∀ list : List Directive,
        (list.map (Directive.shift (line.length + 1))).map (Directive.shift front.length) =
          (list.map (Directive.shift front.length)).map (Directive.shift (line.length + 1)) := by
      intro list
      simp [Directive.shift, Function.comp_def, Nat.add_right_comm]
    have hkept : Directive.unknown (directive.shift front.length ::
        ((ofClusters rest).directives.map (Directive.shift front.length)).map
          (Directive.shift (line.length + 1))) = directive.shift front.length ::
        Directive.unknown (((ofClusters rest).directives.map (Directive.shift front.length)).map
          (Directive.shift (line.length + 1))) :=
      List.filter_cons_of_pos (by simpa using hshifted)
    rw [haccounts'.unresolved, hdirectives, hmoved, Directive.unknown, List.filter_append]
    refine congrArg _ (hkept.trans (congrArg _ ?_))
    rw [Directive.unknown_shift, Directive.unknown_shift]

end Source

/-! ## Texts -/

/-- A line that is an unknown directive can be put before any line of a page: the page
shows the same, and the only difference is that the directive is left. -/
theorem compilePage_with_unknown_directive {before line after : String}
    (hbefore : before = "" ∨ ∃ start, before = start ++ "\n") (hline : '\n' ∉ line.toList)
    (hhead : (Text.clusters line).head? = some "!") {opening : DirectiveOpening}
    (hopening : Directive.parseOpening? line = some opening)
    (hunknown : opening.name ∉ Directive.knownNames) {file : Option String}
    {registries : Registries} {document other : Document}
    (hdocument : (compilePage (before ++ after) file registries).outcome = .ok document)
    (hother : (compilePage (before ++ (line ++ "\n" ++ after)) file registries).outcome =
      .ok other) :
    other.html = document.html ∧ other.titleHtml = document.titleHtml ∧
      other.headings = document.headings ∧ other.contributors = document.contributors ∧
      other.flags = document.flags ∧ other.commands = document.commands ∧
      ∃ directive earlier later, (Source.ofText line).directives = [directive] ∧
        directive.name = opening.name ∧ directive.subname = "" ∧ directive.offset = 0 ∧
        document.unresolved.directives = earlier ++ later ∧
        other.unresolved.directives =
          earlier ++ directive.shift (Text.clusters before).length ::
            later.map (Directive.shift (Text.clusters (line ++ "\n")).length) := by
  obtain ⟨hfront, hbeforeClusters⟩ := Source.endsLine_clusters hbefore
  obtain ⟨clusters, ending, mark, others, directive, hending, hclusters, hdirective, hdirectives,
    hname, hsubname⟩ := Source.directiveLine_of_text hhead hline hopening
  have hlength : (Text.clusters (line ++ "\n")).length = clusters.length + 1 := by
    have hempty := hclusters ""
    rw [String.append_empty] at hempty
    simp [hempty]
  have hdocument := compile_of_outcome hdocument
  have hother := compile_of_outcome hother
  rw [Source.ofText_eq, hbeforeClusters] at hdocument hother
  rw [hclusters] at hother
  obtain ⟨hhtml, htitle, hheadings, hcontributors, hflags, hcommands, earlier, later, hearlier,
    hlater⟩ := Source.compile_inserted hfront hdirective (hname ▸ hunknown) hending hdocument hother
  have hnote : opening.name ≠ Directive.noteName := by
    rintro heq
    exact hunknown (heq ▸ by decide)
  refine ⟨hhtml, htitle, hheadings, hcontributors, hflags, hcommands, directive, earlier, later,
    hdirectives, hname, hsubname.trans (Directive.subname_of_parseOpening? hopening hnote),
    hdirective.offset, hearlier, ?_⟩
  rw [hlength, hlater]

/-- An unknown directive between two lines of one quote. -/
theorem compilePage_with_zap :
    ∃ document other,
      (compilePage ("!title T\n!odd 1\n>a\n" ++ ">b\n!odder 2") none Registries.empty).outcome =
        .ok document ∧
      (compilePage ("!title T\n!odd 1\n>a\n" ++ ("!zap=[[x\r" ++ "\n" ++ ">b\n!odder 2")) none
        Registries.empty).outcome = .ok other ∧
      (Text.clusters "!zap=[[x\r").head? = some "!" ∧
      Directive.parseOpening? "!zap=[[x\r" = some ⟨"zap", "", "=[[x\r"⟩ ∧
      "zap" ∉ Directive.knownNames ∧ other.html = document.html ∧
      ∃ (directive : Directive) (earlier later : List Directive), directive.name = "zap" ∧
        document.unresolved.directives = earlier ++ later ∧
        other.unresolved.directives =
          earlier ++ directive.shift 19 :: later.map (Directive.shift 9) := by
  have hshorter : (compilePage ("!title T\n!odd 1\n>a\n" ++ ">b\n!odder 2") none
      Registries.empty).succeeded = true := by decide +kernel
  have hlonger : (compilePage ("!title T\n!odd 1\n>a\n" ++ ("!zap=[[x\r" ++ "\n" ++
      ">b\n!odder 2")) none Registries.empty).succeeded = true := by decide +kernel
  obtain ⟨document, hdocument⟩ := Compilation.exists_document hshorter
  obtain ⟨other, hother⟩ := Compilation.exists_document hlonger
  have hopening : Directive.parseOpening? "!zap=[[x\r" = some ⟨"zap", "", "=[[x\r"⟩ := by
    decide +kernel
  obtain ⟨hhtml, -, -, -, -, -, directive, earlier, later, -, hname, -, -, hearlier, hlater⟩ :=
    compilePage_with_unknown_directive (.inr ⟨"!title T\n!odd 1\n>a", by decide +kernel⟩)
      (by decide +kernel) (by decide +kernel) hopening (by decide) hdocument hother
  exact ⟨document, other, hdocument, hother, by decide +kernel, hopening, by decide, hhtml,
    directive, earlier, later, hname, hearlier, hlater⟩

end PageMarkup
