import Mathlib.Data.List.Flatten
import PageMarkup.Proofs.Directive.Accounts
import PageMarkup.Proofs.Directive.Lines
import PageMarkup.Proofs.Line.Tiling
import PageMarkup.Proofs.Nesting.Markers
import PageMarkup.Proofs.Tree.Census
import PageMarkup.Proofs.Tree.Origins

/-! # What notices point at

A notice about a part of the page points at a directive of the source, or at the opening
marker of a tree as it was nested, and its remark is about that directive or that tree. What
the passes that read directives say is a matter of the directives and their order alone. The
openers stand in the page in the order of the source, so no two nodes share one.
-/

namespace PageMarkup

open Node Forest

/-! ## Openers -/

/-- Only aggregates have the properties of aggregates. -/
theorem Kind.aggregate_of_any {kind : Kind} {p : Aggregate → Bool}
    (hany : kind.aggregate?.any p = true) : ∃ aggregate, kind = .aggregate aggregate := by
  cases kind with
  | aggregate aggregate => exact ⟨aggregate, rfl⟩
  | _ => cases hany

/-- Offset of the opening marker of a node, if it has one. -/
def Node.opening (data : Node) : List Nat := (data.opener.map (·.start)).toList

/-- Offsets of the opening markers in a forest, in document order. -/
def Forest.openings (forest : Forest) : List Nat := census (·.data.opening) forest

namespace Forest

@[simp]
theorem openings_nil : openings [] = [] := census_nil

@[simp]
theorem openings_append (first second : Forest) :
    openings (first ++ second) = first.openings ++ second.openings := census_append first second

@[simp]
theorem openings_cons (data : Node) (children rest : Forest) :
    openings (.node data children :: rest) =
      data.opening ++ (openings children ++ openings rest) := census_cons data children rest

theorem openings_eq_flatMap (forest : Forest) :
    forest.openings = forest.flatMap fun tree => openings [tree] := census_eq_flatMap forest

end Forest

namespace Tree

/-- The opening marker of every aggregate of the tree is read from it. -/
theorem Grammatical.opener_mem {tree : Tree} (htree : tree.Grammatical) :
    ∀ below ∈ tree.subtrees, ∀ aggregate, below.kind = .aggregate aggregate →
      ∃ opener, below.data.opener = some opener ∧
        { kind := aggregate.startedBy, span := opener } ∈ tree.reading := by
  induction htree with
  | leaf lexeme haggregate =>
      intro below hmem aggregate hkind
      simp only [Nesting.leafOf, Tree.leaf, subtrees_node, subtrees_nil, List.mem_singleton] at hmem
      rw [hmem] at hkind
      rw [show lexeme.kind = .aggregate aggregate from hkind] at haggregate
      cases haggregate
  | aggregate aggregate opener closer children _ _ ih =>
      intro below hmem other hkind
      rw [reading]
      rcases mem_subtrees_iff.mp hmem with rfl | hmem
      · cases hkind
        exact ⟨opener, rfl, by simp⟩
      · obtain ⟨child, hchild, hmem⟩ := mem_subtrees.mp hmem
        obtain ⟨found, hfound, hread⟩ := ih child hchild below hmem other hkind
        refine ⟨found, hfound, ?_⟩
        simp only [forestReading_eq_flatMap, List.mem_append, List.mem_flatMap]
        exact .inl (.inr ⟨child, hchild, hread⟩)

/-- The openers of a tree are marks that open something, in the order in which it is read. -/
theorem Grammatical.openings_sublist {tree : Tree} (htree : tree.Grammatical) :
    (openings [tree]).Sublist
      ((tree.reading.filter (·.kind.starts?.isSome)).map (·.span.start)) := by
  induction htree with
  | leaf lexeme => exact List.nil_sublist _
  | aggregate aggregate opener closer children _ _ ih =>
      have hchildren : (openings children).Sublist
          (((forestReading children).filter (·.kind.starts?.isSome)).map (·.span.start)) := by
        rw [openings_eq_flatMap, forestReading_eq_flatMap, List.filter_flatMap, List.map_flatMap]
        exact List.Sublist.flatMap_right _ ih
      have hopener : ({ kind := aggregate.startedBy, span := opener } :
          Mark).kind.starts?.isSome = true := by cases aggregate <;> rfl
      simp only [openings_cons, openings_nil, List.append_nil, Node.opening, Option.map_some,
        Option.toList_some, reading, List.cons_append, List.nil_append]
      rw [List.filter_cons, if_pos hopener, List.filter_append, List.map_cons, List.map_append]
      exact (hchildren.trans (List.sublist_append_left _ _)).cons_cons _

end Tree

/-- No two nodes of a nested page have the same opener. -/
theorem Forest.nodup_openings {source : Source} {page : Forest}
    (hpage : ofLexemes source.lexemes = .ok page) : page.openings.Nodup := by
  obtain ⟨hgrammatical, hspells⟩ := (ofLexemes_eq_ok_iff source.isRaw_lexemes page).mp hpage
  have hread : page.openings.Sublist
      ((page.reading.filter (·.kind.starts?.isSome)).map (·.span.start)) := by
    rw [openings_eq_flatMap, reading, Tree.forestReading_eq_flatMap, List.filter_flatMap,
      List.map_flatMap]
    exact List.Sublist.flatMap_right _ fun tree htree => (hgrammatical tree htree).openings_sublist
  have hlexemes : (page.reading.filter (·.kind.starts?.isSome)).map (·.span.start) =
      (source.lexemes.filter (·.kind.starts?.isSome)).map (·.span.start) := by
    have hpairs := congrArg (fun pairs => (pairs.filter (·.1.starts?.isSome)).map (·.2.start))
      hspells.kinds_and_spans
    simpa only [List.filter_map, List.map_map, Function.comp_def] using hpairs
  have hsublist : page.openings.Sublist (source.lexemes.map (·.span.start)) :=
    (hlexemes ▸ hread).trans (List.filter_sublist.map _)
  exact (source.ascending_lexemes.sublist hsublist).imp Nat.ne_of_lt

/-- Every aggregate of a nested page was opened where its opener is. -/
theorem Source.opens_of_mem_subtrees {source : Source} {page : Forest}
    (hpage : ofLexemes source.lexemes = .ok page) {tree : Tree} (hmem : tree ∈ page.subtrees)
    {aggregate : Aggregate} (hkind : tree.kind = .aggregate aggregate) :
    ∃ opener, tree.data.opener = some opener ∧ source.Opens aggregate opener.start := by
  have hgrammatical := ((ofLexemes_eq_ok_iff source.isRaw_lexemes page).mp hpage).1
  obtain ⟨top, htop, hmem⟩ := mem_subtrees.mp hmem
  obtain ⟨opener, hopener, hread⟩ := (hgrammatical top htop).opener_mem tree hmem aggregate hkind
  have hreading : { kind := aggregate.startedBy, span := opener } ∈ page.reading := by
    rw [reading, Tree.forestReading_eq_flatMap]
    exact List.mem_flatMap.mpr ⟨top, htop, hread⟩
  obtain ⟨lexeme, hlexeme, hstarts, hspan⟩ := exists_lexeme_of_mem_reading hpage hreading
  have hopens := opens_of_mem_lexemes hlexeme hstarts
  rw [hspan] at hopens
  exact ⟨opener, hopener, hopens⟩

/-! ## Notices -/

/-- The directive comes after another one of which `p` holds. -/
def Directive.Follows (p : Directive → Prop) (directives : List Directive)
    (directive : Directive) : Prop :=
  ∃ earlier, [earlier, directive].Sublist directives ∧ p earlier

namespace Remark

/-- Whether the remark is about the page as a whole. -/
def isGeneral : Remark → Bool
  | .treeBuilt _ | .notesResolved _ | .pageParsed _ => true
  | _ => false

/-- The remark is about the directive: it has the name that is told, or it is told what the
directive says. What is repeated has been said before. -/
def IsAbout (registries : Registries) (directives : List Directive) (directive : Directive) :
    Remark → Prop
  | .directiveFound name | .directiveUnknown name => directive.name = name
  | .flagRepeated name =>
    directive.name = name ∧ directive.Follows (·.name = name) directives
  | .commandEmpty =>
    directive.name = "command" ∧ (Command.ofArgument directive.argument).isEmpty = true
  | .titleRepeated =>
    directive.name = "title" ∧ directive.Follows (·.name = "title") directives
  | .titleEmpty => directive.name = "title" ∧ directive.argument.isEmpty = true
  | .contributorUnknown name =>
    directive.name = "contributor" ∧ directive.argument = name ∧
      registries.contributor? name = none
  | .contributorRepeated name =>
    directive.name = "contributor" ∧ directive.argument = name ∧
      ∃ contributor, registries.contributor? name = some contributor ∧
        directive.Follows (fun earlier => earlier.name = "contributor" ∧
          ∃ other, registries.contributor? earlier.argument = some other ∧
            other.username = contributor.username) directives
  | .noteUnreferenced name => directive.name = "note" ∧ directive.subname = name
  | .noteRepeated name =>
    directive.name = "note" ∧ directive.subname = name ∧
      directive.Follows (fun earlier => earlier.name = "note" ∧ earlier.subname = name) directives
  | _ => False

/-- The remark is about the tree of the page: it is of the kind that is told, it is the first
reference to the note that is told, or it holds what is told. -/
def IsAboutTree (registries : Registries) (page : Forest) (tree : Tree) : Remark → Prop
  | .emptyRemoved kind => tree.kind = kind
  | .noteUndefined name =>
    (page.references.filter (!·.isLeaf)).find? (·.noteName == name) = some tree
  | .linkWithoutTarget =>
    tree.kind = .aggregate (.bracket .externalLink) ∧
      (Link.targetAndLabel tree.textContent).1.isEmpty = true
  | .mediaUnknown name =>
    tree.kind = .aggregate (.bracket .embeddedFile) ∧
      (Embed.parse tree.textContent).name = name ∧ registries.media? name = none
  | .widthOutOfRange width name used =>
    tree.kind = .aggregate (.bracket .embeddedFile) ∧
      (Embed.parse tree.textContent).name = name ∧
      (Embed.parse tree.textContent).width = some width ∧ used = min (max width 1) 100
  | _ => False

end Remark

/-- Where the notice points, if anywhere: at the mark of a directive of the source, or at the
opening marker of a tree of the page. -/
inductive Notice.Points (source : Source) (registries : Registries) (page : Forest) :
    Notice → Prop where
  | general {remark : Remark} :
      remark.isGeneral = true → Points source registries page ⟨remark, none⟩
  | directive {remark : Remark} {directive : Directive} :
      directive ∈ source.directives → source.Opens (.line .directive) directive.offset →
      remark.IsAbout registries source.directives directive →
      Points source registries page ⟨remark, some directive.offset⟩
  | tree {remark : Remark} {tree : Tree} {aggregate : Aggregate} {opener : Span} :
      tree ∈ page.subtrees → tree.kind = .aggregate aggregate → tree.data.opener = some opener →
      source.Opens aggregate opener.start → remark.IsAboutTree registries page tree →
      Points source registries page ⟨remark, some opener.start⟩

variable {source : Source} {registries : Registries} {page : Forest}

/-- Every directive of a source stands where a line starts with its mark. -/
theorem Source.opens_of_mem_directives {directive : Directive}
    (hmem : directive ∈ source.directives) : source.Opens (.line .directive) directive.offset := by
  have hoffset := List.mem_map_of_mem (f := (·.offset)) hmem
  rw [map_offset_directives] at hoffset
  obtain ⟨token, htoken, hstart⟩ := List.mem_map.mp hoffset
  obtain ⟨htoken, hkind⟩ := List.mem_filter.mp htoken
  exact hstart ▸ opens_of_mem_tokens htoken (beq_iff_eq.mp hkind)

namespace Notice

theorem points_of_directive {directive : Directive} {remark : Remark}
    (hmem : directive ∈ source.directives)
    (habout : remark.IsAbout registries source.directives directive) :
    Points source registries page ⟨remark, some directive.offset⟩ :=
  .directive hmem (Source.opens_of_mem_directives hmem) habout

theorem points_of_tree {tree : Tree} {aggregate : Aggregate} {remark : Remark}
    (hpage : ofLexemes source.lexemes = .ok page) (hmem : tree ∈ page.subtrees)
    (hkind : tree.kind = .aggregate aggregate)
    (habout : remark.IsAboutTree registries page tree) :
    Points source registries page ⟨remark, some tree.data.offset⟩ := by
  obtain ⟨opener, hopener, hopens⟩ := Source.opens_of_mem_subtrees hpage hmem hkind
  have hoffset : tree.data.offset = opener.start := by rw [Node.offset, hopener]
  exact hoffset ▸ .tree hmem hkind hopener hopens habout

end Notice

/-! ## Directives -/

section Directives

variable {directives before after : List Directive}

/-- The directive comes after each of those before it. -/
theorem Directive.follows_of_mem {p : Directive → Prop} {directive earlier : Directive}
    (hsplit : (before ++ directive :: after).Sublist directives) (hearlier : earlier ∈ before)
    (hp : p earlier) : directive.Follows p directives := by
  have hpair : ([earlier] ++ [directive]).Sublist (before ++ directive :: after) :=
    (List.singleton_sublist.mpr hearlier).append
      (List.singleton_sublist.mpr List.mem_cons_self)
  exact ⟨earlier, hpair.trans hsplit, hp⟩

theorem Directive.mem_of_split {directive : Directive}
    (hsplit : (before ++ directive :: after).Sublist directives) : directive ∈ directives :=
  hsplit.subset (by simp)

variable {table : DirectiveTable} (htable : table.directives.Sublist source.directives)

include htable

theorem DirectiveTable.named_sublist (name : String) :
    (table.named name).Sublist source.directives :=
  List.filter_sublist.trans htable

theorem DirectiveTable.name_of_mem_named {name : String} {directive : Directive}
    (hmem : directive ∈ table.named name) :
    directive ∈ source.directives ∧ directive.name = name := by
  obtain ⟨hmem, hname⟩ := List.mem_filter.mp hmem
  exact ⟨htable.subset hmem, beq_iff_eq.mp hname⟩

theorem Flag.points_notices (flag : Flag) :
    ∀ notice ∈ flag.notices table, notice.Points source registries page := by
  intro notice hmem
  obtain ⟨directive, hdirective, rfl⟩ := List.mem_map.mp hmem
  cases hnamed : table.named flag.directive with
  | nil =>
      rw [hnamed] at hdirective
      cases hdirective
  | cons first others =>
      rw [hnamed, List.tail_cons] at hdirective
      have hname : ∀ other ∈ first :: others, other.name = flag.directive := fun other hother =>
        (DirectiveTable.name_of_mem_named htable (hnamed ▸ hother)).2
      obtain ⟨before, after, rfl⟩ := List.append_of_mem hdirective
      have hsplit := DirectiveTable.named_sublist htable flag.directive
      rw [hnamed, ← List.cons_append] at hsplit
      exact Notice.points_of_directive (Directive.mem_of_split hsplit)
        ⟨hname _ (List.mem_cons_of_mem _ hdirective),
          Directive.follows_of_mem hsplit List.mem_cons_self (hname first List.mem_cons_self)⟩

theorem Command.points_notices :
    ∀ notice ∈ Command.notices (table.named Command.directive),
      notice.Points source registries page := by
  intro notice hmem
  obtain ⟨directive, hdirective, rfl⟩ := List.mem_map.mp hmem
  obtain ⟨hdirective, hempty⟩ := List.mem_filter.mp hdirective
  obtain ⟨hsource, hname⟩ := DirectiveTable.name_of_mem_named htable hdirective
  exact Notice.points_of_directive hsource ⟨hname, hempty⟩

theorem PageTitle.points_notices {first : Directive} {others : List Directive}
    (hfound : table.named PageTitle.directive = first :: others) :
    ∀ notice ∈ others.map (fun other => (⟨.titleRepeated, some other.offset⟩ : Notice)) ++
        (if first.argument.isEmpty then [⟨.titleEmpty, some first.offset⟩] else []),
      notice.Points source registries page := by
  have hnamed : ∀ directive ∈ table.named PageTitle.directive,
      directive ∈ source.directives ∧ directive.name = "title" :=
    fun directive hmem => DirectiveTable.name_of_mem_named htable hmem
  have hsublist := DirectiveTable.named_sublist htable PageTitle.directive
  rw [hfound] at hnamed hsublist
  obtain ⟨⟨hfirst, hname⟩, hothers⟩ := List.forall_mem_cons.mp hnamed
  refine List.forall_mem_append.mpr ⟨fun notice hmem => ?_, fun notice hmem => ?_⟩
  · obtain ⟨other, hother, rfl⟩ := List.mem_map.mp hmem
    obtain ⟨before, after, rfl⟩ := List.append_of_mem hother
    have hsplit : ((first :: before) ++ other :: after).Sublist source.directives := hsublist
    exact Notice.points_of_directive (Directive.mem_of_split hsplit)
      ⟨(hothers other hother).2, Directive.follows_of_mem hsplit List.mem_cons_self hname⟩
  · split at hmem
    next hempty =>
      rw [List.mem_singleton.mp hmem]
      exact Notice.points_of_directive hfirst ⟨hname, hempty⟩
    next => cases hmem

theorem DirectiveTable.points_unknownNotices :
    ∀ notice ∈ table.unknownNotices, notice.Points source registries page := by
  intro notice hmem
  obtain ⟨⟨name, group⟩, hentry, hmem⟩ := List.mem_flatMap.mp hmem
  obtain ⟨directive, hdirective, rfl⟩ := List.mem_map.mp hmem
  obtain ⟨rfl, -⟩ := DirectiveTable.mem_entries.mp hentry
  obtain ⟨hsource, hname⟩ := DirectiveTable.name_of_mem_named htable hdirective
  exact Notice.points_of_directive hsource hname

omit htable

theorem Contributor.points_warnings
    (hsublist : (before ++ directives).Sublist source.directives)
    (hname : ∀ directive ∈ before ++ directives, directive.name = "contributor") :
    ∀ notice ∈ warnings registries before directives, notice.Points source registries page := by
  induction directives generalizing before with
  | nil => exact List.forall_mem_nil _
  | cons directive rest ih =>
      have hnext : before ++ directive :: rest = (before ++ [directive]) ++ rest := by simp
      refine List.forall_mem_append.mpr ⟨fun notice hmem => ?_, ih (hnext ▸ hsublist)
        (hnext ▸ hname)⟩
      have hhere := hname directive (by simp)
      rw [Option.mem_toList] at hmem
      unfold warning? at hmem
      split at hmem
      next hunknown =>
        cases hmem
        exact Notice.points_of_directive (Directive.mem_of_split hsublist) ⟨hhere, rfl, hunknown⟩
      next contributor hlookup =>
        split at hmem
        next hrepeated =>
          cases hmem
          obtain ⟨other, hother, husername⟩ := List.mem_map.mp hrepeated
          obtain ⟨earlier, hearlier, hfound⟩ := List.mem_filterMap.mp hother
          have hearlierName := hname earlier (List.mem_append_left _ hearlier)
          exact Notice.points_of_directive (Directive.mem_of_split hsublist)
            ⟨hhere, rfl, contributor, hlookup, Directive.follows_of_mem hsublist hearlier
              ⟨hearlierName, other, hfound, husername⟩⟩
        next => cases hmem

/-- A warning about a definition points at it. -/
theorem Note.points_definitionWarnings {names earlier : List String}
    (hsublist : (before ++ directives).Sublist source.directives)
    (hname : ∀ directive ∈ before ++ directives, directive.name = "note")
    (hearlier : ∀ name ∈ earlier, ∃ definition ∈ before, definition.subname = name) :
    ∀ notice ∈ definitionWarnings names earlier directives,
      notice.Points source registries page := by
  induction directives generalizing before earlier with
  | nil => exact List.forall_mem_nil _
  | cons definition rest ih =>
      have hnext : before ++ definition :: rest = (before ++ [definition]) ++ rest := by simp
      have hlater : ∀ name ∈ definition.subname :: earlier,
          ∃ found ∈ before ++ [definition], found.subname = name := by
        refine List.forall_mem_cons.mpr ⟨⟨definition, by simp, rfl⟩, fun name hmem => ?_⟩
        obtain ⟨found, hfound, hsubname⟩ := hearlier name hmem
        exact ⟨found, List.mem_append_left _ hfound, hsubname⟩
      refine List.forall_mem_append.mpr ⟨fun notice hmem => ?_, ih (hnext ▸ hsublist)
        (hnext ▸ hname) hlater⟩
      have hhere := hname definition (by simp)
      rw [Option.mem_toList] at hmem
      unfold definitionWarning? at hmem
      split at hmem
      next =>
        cases hmem
        exact Notice.points_of_directive (Directive.mem_of_split hsublist) ⟨hhere, rfl⟩
      next =>
        split at hmem
        next hrepeated =>
          cases hmem
          obtain ⟨found, hfound, hsubname⟩ := hearlier _ hrepeated
          have hfoundName := hname found (List.mem_append_left _ hfound)
          exact Notice.points_of_directive (Directive.mem_of_split hsublist)
            ⟨hhere, rfl, Directive.follows_of_mem hsublist hfound ⟨hfoundName, hsubname⟩⟩
        next => cases hmem

end Directives

end PageMarkup
