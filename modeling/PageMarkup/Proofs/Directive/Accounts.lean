import Mathlib.Data.String.Basic
import PageMarkup.Proofs.Directive.Lines
import PageMarkup.Proofs.Note.Pages

/-! # What directives say about a page

The title, the switches, the commands and the contributors of a page are read off its
directives alone, and every directive that no stage understands is told at the end. The
directives are never lost, taken twice or put into another order on the way.
-/

namespace PageMarkup

/-! ## Tables by name -/

namespace DirectiveTable

theorem mem_insertName {name other : String} {names : List String} :
    other ∈ insertName name names ↔ other = name ∨ other ∈ names := by
  induction names with
  | nil => simp [insertName]
  | cons first rest ih =>
      unfold insertName
      split
      next => simp
      next =>
        split
        next heq => simp [heq]
        next => simp [ih, or_left_comm]

theorem pairwise_insertName {names : List String} (hnames : names.Pairwise (· < ·))
    (name : String) : (insertName name names).Pairwise (· < ·) := by
  induction names with
  | nil => exact List.pairwise_singleton ..
  | cons first rest ih =>
      obtain ⟨hfirst, hrest⟩ := List.pairwise_cons.mp hnames
      unfold insertName
      split
      next hlt =>
        refine List.pairwise_cons.mpr ⟨fun other hother => ?_, hnames⟩
        rcases List.mem_cons.mp hother with rfl | hother
        · exact hlt
        · exact hlt.trans (hfirst other hother)
      next hnlt =>
        split
        next => exact hnames
        next hne =>
          refine List.pairwise_cons.mpr ⟨fun other hother => ?_, ih hrest⟩
          rcases mem_insertName.mp hother with rfl | hother
          · exact lt_of_le_of_ne (not_lt.mp hnlt) (Ne.symm hne)
          · exact hfirst other hother

theorem mem_names {table : DirectiveTable} {name : String} :
    name ∈ table.names ↔ ∃ directive ∈ table.directives, directive.name = name := by
  unfold names
  induction table.directives with
  | nil => simp
  | cons first rest ih => simp [mem_insertName, ih, eq_comm]

/-- The names in a table ascend. -/
theorem pairwise_names (table : DirectiveTable) : table.names.Pairwise (· < ·) := by
  unfold names
  induction table.directives with
  | nil => exact List.Pairwise.nil
  | cons first rest ih => exact pairwise_insertName ih first.name

/-- The entries of a table are its directives, by name. -/
theorem mem_entries {table : DirectiveTable} {name : String} {group : List Directive} :
    (name, group) ∈ table.entries ↔
      group = table.directives.filter (·.name == name) ∧ group ≠ [] := by
  have hnamed : table.named name ≠ [] ↔ name ∈ table.names := by
    rw [mem_names, named, ne_eq, List.filter_eq_nil_iff]
    simp
  rw [entries, List.mem_map]
  constructor
  · rintro ⟨found, hmem, heq⟩
    cases heq
    exact ⟨rfl, hnamed.mpr hmem⟩
  · rintro ⟨rfl, hne⟩
    exact ⟨name, hnamed.mp hne, rfl⟩

end DirectiveTable

/-- Whether a switch is on. -/
def PageFlags.isOn (flags : PageFlags) : Flag → Bool
  | .centerTitle => flags.centerTitle
  | .makeBlueRed => flags.makeBlueRed
  | .noSearchIndex => flags.noSearchIndex
  | .noEdit => flags.noEdit

/-! ## Contributors -/

namespace Contributor

/-- Every contributor of the list whose user name has not come before. -/
def firsts : List Contributor → List Contributor
  | [] => []
  | contributor :: rest =>
    contributor :: (firsts rest).filter (·.username != contributor.username)

/-- The contributors that the directives name, unknown ones left out. -/
def credited (registries : Registries) (directives : List Directive) : List Contributor :=
  directives.filterMap fun directive => registries.contributor? directive.argument

/-- What is wrong with crediting a contributor after the directives `before`. -/
def warning? (registries : Registries) (before : List Directive) (directive : Directive) :
    Option Notice :=
  match registries.contributor? directive.argument with
  | none => some ⟨.contributorUnknown directive.argument, some directive.offset⟩
  | some contributor =>
    if contributor.username ∈ (credited registries before).map (·.username) then
      some ⟨.contributorRepeated directive.argument, some directive.offset⟩
    else none

/-- What is wrong with directives that credit contributors after the directives `before`. -/
def warnings (registries : Registries) (before : List Directive) : List Directive → List Notice
  | [] => []
  | directive :: rest =>
    (warning? registries before directive).toList ++
      warnings registries (before ++ [directive]) rest

theorem usernames_firsts {contributors : List Contributor} {username : String} :
    username ∈ (firsts contributors).map (·.username) ↔
      username ∈ contributors.map (·.username) := by
  induction contributors with
  | nil => rfl
  | cons first rest ih =>
      by_cases hname : username = first.username
      · simp [firsts, hname]
      · have hkept : username ∈ ((firsts rest).filter (·.username != first.username)).map
            (·.username) ↔ username ∈ (firsts rest).map (·.username) := by
          simp only [List.mem_map, List.mem_filter, bne_iff_ne]
          refine exists_congr fun contributor => ?_
          refine ⟨fun h => ⟨h.1.1, h.2⟩, fun h => ⟨⟨h.1, ?_⟩, h.2⟩⟩
          rw [h.2]
          exact hname
        rw [firsts, List.map_cons, List.map_cons, List.mem_cons, List.mem_cons, hkept, ih]

theorem firsts_concat (contributors : List Contributor) (last : Contributor) :
    firsts (contributors ++ [last]) =
      if last.username ∈ contributors.map (·.username) then firsts contributors
      else firsts contributors ++ [last] := by
  induction contributors with
  | nil => rfl
  | cons first rest ih =>
      rw [List.cons_append, firsts, ih]
      by_cases hfirst : last.username = first.username
      · by_cases hrest : last.username ∈ rest.map (·.username)
        · simp [firsts, hfirst, hfirst ▸ hrest]
        · simp [firsts, hfirst, hfirst ▸ hrest]
      · by_cases hrest : last.username ∈ rest.map (·.username)
        · have hsome : last.username ∈ (first :: rest).map (·.username) :=
            List.mem_cons_of_mem _ hrest
          rw [if_pos hrest, if_pos hsome, firsts]
        · have hnone : last.username ∉ (first :: rest).map (·.username) := by
            rw [List.map_cons, List.mem_cons, not_or]
            exact ⟨hfirst, hrest⟩
          rw [if_neg hrest, if_neg hnone, firsts]
          simp [hfirst]

/-- Looking up directives one after the other keeps the first contributor of each user name,
and warns as the directives alone say. -/
theorem ofDirectives_firsts (registries : Registries) (before directives : List Directive) :
    ofDirectives registries (firsts (credited registries before)) directives =
      (firsts (credited registries (before ++ directives)),
        warnings registries before directives) := by
  induction directives generalizing before with
  | nil => simp [ofDirectives, warnings]
  | cons directive rest ih =>
      have hnext := ih (before ++ [directive])
      rw [List.append_assoc, List.singleton_append] at hnext
      rw [ofDirectives, warnings, warning?]
      cases hlookup : registries.contributor? directive.argument with
      | none =>
          have hsame : credited registries (before ++ [directive]) =
              credited registries before := by
            simp [credited, hlookup]
          rw [hsame] at hnext
          dsimp only
          rw [hnext]
          rfl
      | some contributor =>
          have hmore : credited registries (before ++ [directive]) =
              credited registries before ++ [contributor] := by
            simp [credited, hlookup]
          rw [hmore, firsts_concat] at hnext
          dsimp only
          have hknown : (firsts (credited registries before)).any
              (·.username == contributor.username) = true ↔
              contributor.username ∈ (credited registries before).map (·.username) := by
            rw [← usernames_firsts]
            simp
          by_cases hmem : contributor.username ∈ (credited registries before).map (·.username)
          · rw [if_pos hmem] at hnext ⊢
            rw [if_pos (hknown.mpr hmem), hnext]
            rfl
          · rw [if_neg hmem] at hnext ⊢
            rw [if_neg (mt hknown.mp hmem), hnext]
            rfl

end Contributor

/-! ## Remarks of a run -/

/-- The notice that a happening is, if its remark is of the sort `p`. -/
def Happening.noticeOf? (p : Remark → Bool) : Happening → Option Notice
  | .noted notice => if p notice.remark then some notice else none
  | .passed _ => none

/-- Whether the remark is about a directive as such, not about the note that it defines. -/
def Remark.isAboutDirective : Remark → Bool
  | .directiveFound _ | .flagRepeated _ | .commandEmpty | .titleRepeated | .titleEmpty => true
  | .contributorUnknown _ | .contributorRepeated _ | .directiveUnknown _ => true
  | _ => false

namespace Draft

variable {source : Source} {registries : Registries} {p : Remark → Bool}

theorem filterMap_noticeOf (notices : List Notice) :
    (notices.map Happening.noted).filterMap (Happening.noticeOf? p) =
      notices.filter (p ·.remark) := by
  rw [List.filterMap_map, ← List.filterMap_eq_filter]
  rfl

/-- A pass all of whose remarks are of the sort tells all its notices. -/
theorem filter_eq_self {pass : Pass} {notices : List Notice} (hnotices : pass.Notes notices)
    (hpass : ∀ remark, pass.mayNote remark = true → p remark = true) :
    notices.filter (p ·.remark) = notices :=
  List.filter_eq_self.mpr fun notice hmem => hpass _ (hnotices notice hmem)

theorem filter_eq_nil {pass : Pass} {notices : List Notice} (hnotices : pass.Notes notices)
    (hpass : ∀ remark, pass.mayNote remark = true → p remark = false) :
    notices.filter (p ·.remark) = [] :=
  List.filter_eq_nil_iff.mpr fun notice hmem => by simp [hpass _ (hnotices notice hmem)]

theorem noticesOf_cons {pass : Pass} {draft next : Draft} {notices : List Notice}
    (hrun : pass.run source registries draft = .ok (next, notices)) (passes : List Pass) :
    (runPasses source registries (pass :: passes) draft).1.filterMap (Happening.noticeOf? p) =
      notices.filter (p ·.remark) ++
        (runPasses source registries passes next).1.filterMap (Happening.noticeOf? p) := by
  rw [runPasses, hrun]
  dsimp only
  rw [List.filterMap_append, filterMap_noticeOf, List.filterMap_cons_none rfl]

theorem noticesOf_silent {passes : List Pass}
    (hpasses : ∀ pass ∈ passes, ∀ remark, pass.mayNote remark = true → p remark = false)
    (draft : Draft) :
    (runPasses source registries passes draft).1.filterMap (Happening.noticeOf? p) = [] := by
  induction passes generalizing draft with
  | nil => rfl
  | cons pass passes ih =>
      obtain ⟨hpass, hrest⟩ := List.forall_mem_cons.mp hpasses
      cases hrun : pass.run source registries draft with
      | error fault => rw [runPasses, hrun]; rfl
      | ok answer =>
          obtain ⟨next, notices⟩ := answer
          rw [noticesOf_cons hrun, filter_eq_nil (Pass.notes_run hrun) hpass, ih hrest]
          rfl

/-- Passes that say nothing of the sort do not show. -/
theorem noticesOf_append {passes : List Pass}
    (hpasses : ∀ pass ∈ passes, ∀ remark, pass.mayNote remark = true → p remark = false)
    {draft middle : Draft} (hmiddle : (runPasses source registries passes draft).2 = .ok middle)
    (others : List Pass) :
    (runPasses source registries (passes ++ others) draft).1.filterMap (Happening.noticeOf? p) =
      (runPasses source registries others middle).1.filterMap (Happening.noticeOf? p) := by
  rw [runPasses_append_happenings hmiddle, List.filterMap_append, noticesOf_silent hpasses,
    List.nil_append]

/-! ## The ledger of a run -/

/-- A draft without its body: what is known of the page besides it. -/
def ledger (draft : Draft) : Draft := { draft with body := [], headings := [] }

/-- The passes that work on the body alone. -/
def editing : List Pass :=
  [.validate, .prune, .blockquotes, .trim, .paragraphs, .externalLinks, .embeddedFiles, .lowering]

theorem ledger_editing {pass : Pass} (hpass : pass ∈ editing) {draft next : Draft}
    {notices : List Notice} (hrun : pass.run source registries draft = .ok (next, notices)) :
    next.ledger = draft.ledger := by
  cases pass with
  | validate =>
      obtain ⟨-, rfl, -⟩ := validate_eq_ok hrun
      rfl
  | prune | blockquotes | trim | paragraphs | externalLinks | embeddedFiles | lowering =>
      cases hrun
      rfl
  | _ => simp [editing] at hpass

theorem ledger_runPasses {passes : List Pass} (hpasses : passes ⊆ editing) {draft final : Draft}
    (hrun : (runPasses source registries passes draft).2 = .ok final) :
    final.ledger = draft.ledger := by
  refine runPasses_invariant (P := fun other => other.ledger = draft.ledger) ?_ hrun rfl
  intro pass hpass other next notices hother hnext
  exact (ledger_editing (hpasses hpass) hnext).trans hother

end Draft

namespace Directive

/-- The directives of a name, in order. -/
def named (name : String) (directives : List Directive) : List Directive :=
  directives.filter (·.name == name)

/-- The names of directives that mean something. -/
def knownNames : List String :=
  ["title", "contributor", "command", "note", "center_title", "make_blue_red", "nosearchindex",
    "noedit"]

/-- The directives that mean nothing, in order. -/
def unknown (directives : List Directive) : List Directive :=
  directives.filter (·.name ∉ knownNames)

/-- Sorting directives by known names keeps each of them exactly once. -/
theorem perm_named_unknown {names : List String} (hnames : names.Nodup)
    (directives : List Directive) :
    ((names.flatMap fun name => named name directives) ++
      directives.filter (·.name ∉ names)).Perm directives := by
  induction names with
  | nil => simp
  | cons name rest ih =>
      obtain ⟨hname, hrest⟩ := List.nodup_cons.mp hnames
      have hhere : named name (directives.filter (·.name ∉ rest)) = named name directives := by
        rw [named, List.filter_filter]
        refine List.filter_congr fun directive _ => ?_
        by_cases heq : directive.name = name
        · simp [heq, hname]
        · simp [heq]
      have hothers : (directives.filter (·.name ∉ rest)).filter (fun d => !(d.name == name)) =
          directives.filter (·.name ∉ name :: rest) := by
        rw [List.filter_filter]
        refine List.filter_congr fun directive _ => ?_
        by_cases heq : directive.name = name <;> simp [heq]
      have hsplit := List.filter_append_perm (·.name == name) (directives.filter (·.name ∉ rest))
      rw [hothers, show List.filter _ _ = named name directives from hhere] at hsplit
      rw [List.flatMap_cons, List.append_assoc]
      calc named name directives ++ ((rest.flatMap fun name => named name directives) ++
              directives.filter (·.name ∉ name :: rest))
          |>.Perm ((rest.flatMap fun name => named name directives) ++
              (named name directives ++ directives.filter (·.name ∉ name :: rest))) := by
            exact List.perm_append_comm_assoc ..
        _ |>.Perm ((rest.flatMap fun name => named name directives) ++
              directives.filter (·.name ∉ rest)) := hsplit.append_left _
        _ |>.Perm directives := ih hrest

/-- What is wrong with the directives of a page. -/
def warnings (registries : Registries) (directives : List Directive) : List Notice :=
  Flag.all.flatMap (fun flag => (named flag.directive directives).tail.map fun repeated =>
      ⟨.flagRepeated flag.directive, some repeated.offset⟩)
    ++ ((named "command" directives).filter fun command =>
      (Text.lower (Text.trim command.argument)).isEmpty).map
        (fun command => ⟨.commandEmpty, some command.offset⟩)
    ++ (named "title" directives).tail.map (fun later => ⟨.titleRepeated, some later.offset⟩)
    ++ (((named "title" directives).take 1).filter (·.argument.isEmpty)).map
      (fun first => ⟨.titleEmpty, some first.offset⟩)
    ++ Contributor.warnings registries [] (named "contributor" directives)
    ++ (DirectiveTable.mk (unknown directives)).entries.flatMap fun (name, group) =>
      group.map fun directive => ⟨.directiveUnknown name, some directive.offset⟩

end Directive

/-- What the directives of a page make of it. -/
structure Document.Accounts (registries : Registries) (directives : List Directive)
    (document : Document) : Prop where
  title : ∃ first, (Directive.named "title" directives).head? = some first ∧
    document.title.text = first.argument ∧
    document.title = .ofDirective document.flags.centerTitle first
  flags : ∀ flag, document.flags.isOn flag = directives.any (·.name == flag.directive)
  commands : document.commands =
    ((Directive.named "command" directives).map fun command =>
      Text.lower (Text.trim command.argument)).filter (!·.isEmpty)
  contributors : document.contributors =
    Contributor.firsts (Contributor.credited registries (Directive.named "contributor" directives))
  unresolved : document.unresolved.directives = Directive.unknown directives
  /-- The unknown directives are told by name. -/
  ascending : (document.unresolved.entries.map (·.1)).Pairwise (· < ·)
  grouped : ∀ name group, (name, group) ∈ document.unresolved.entries ↔
    group = Directive.named name (Directive.unknown directives) ∧ group ≠ []
  /-- A directive has a name that means something or is unknown, never both. -/
  conserved : ((Directive.knownNames.flatMap fun name => Directive.named name directives) ++
    Directive.unknown directives).Perm directives

/-! ## Reading the directives of a page -/

/-- The passes that say something about directives. -/
def Pass.consuming : List Pass :=
  [.directives, .flags, .commands, .title, .contributors, .residualDirectives]

/-- Other passes say nothing about directives, and these say nothing else. -/
theorem Pass.isAboutDirective_iff {pass : Pass} {remark : Remark}
    (hmay : pass.mayNote remark = true) : remark.isAboutDirective = true ↔ pass ∈ consuming := by
  cases remark <;> cases pass <;> first
    | (cases hmay; done)
    | simp [Remark.isAboutDirective, consuming]

/-- Passes that take no directives say nothing about directives. -/
theorem Pass.not_isAboutDirective {passes : List Pass}
    (hpasses : ∀ pass ∈ passes, pass ∉ consuming) :
    ∀ pass ∈ passes, ∀ remark, pass.mayNote remark = true → remark.isAboutDirective = false := by
  intro pass hpass remark hmay
  have hnot := mt (isAboutDirective_iff hmay).mp (hpasses pass hpass)
  simpa using hnot

namespace Draft

variable {source : Source} {registries : Registries}

/-- A pass that takes directives tells all its notices, and then the others follow. -/
theorem noticesOf_consuming {pass : Pass} (hpass : pass ∈ Pass.consuming) {draft next : Draft}
    {notices : List Notice} (hrun : pass.run source registries draft = .ok (next, notices))
    (passes : List Pass) :
    (runPasses source registries (pass :: passes) draft).1.filterMap
        (Happening.noticeOf? Remark.isAboutDirective) =
      notices ++ (runPasses source registries passes next).1.filterMap
        (Happening.noticeOf? Remark.isAboutDirective) := by
  rw [noticesOf_cons hrun,
    filter_eq_self (Pass.notes_run hrun) fun _ hmay => (Pass.isAboutDirective_iff hmay).mpr hpass]

theorem named_withoutFlags (table : DirectiveTable) {name : String}
    (hname : ∀ flag : Flag, name ≠ flag.directive) :
    table.withoutFlags.named name = table.named name := by
  simp only [DirectiveTable.withoutFlags, Flag.all, List.foldl_cons, List.foldl_nil]
  rw [named_without _ (hname _), named_without _ (hname _), named_without _ (hname _),
    named_without _ (hname _)]

/-- The ledger of a page with the directives, the first of which to name a title is `first`. -/
def account (registries : Registries) (directives : List Directive) (first : Directive) : Draft :=
  { body := []
    directives := ⟨Directive.unknown directives⟩
    flags := .ofTable ⟨directives⟩
    commands := Command.ofDirectives (Directive.named "command" directives)
    title := some (.ofDirective (PageFlags.ofTable ⟨directives⟩).centerTitle first)
    contributors := Contributor.firsts
      (Contributor.credited registries (Directive.named "contributor" directives)) }

theorem ledger_flags {draft next : Draft} {notices : List Notice}
    (hrun : Pass.flags.run source registries draft = .ok (next, notices)) :
    next.ledger =
        { draft.ledger with
          flags := .ofTable draft.ledger.directives
          directives := draft.ledger.directives.withoutFlags } ∧
      notices = Flag.all.flatMap (Flag.notices draft.ledger.directives) := by
  cases hrun
  exact ⟨rfl, rfl⟩

theorem ledger_commands {draft next : Draft} {notices : List Notice}
    (hrun : Pass.commands.run source registries draft = .ok (next, notices)) :
    next.ledger =
        { draft.ledger with
          commands := Command.ofDirectives (draft.ledger.directives.named Command.directive)
          directives := draft.ledger.directives.without Command.directive } ∧
      notices = Command.notices (draft.ledger.directives.named Command.directive) := by
  cases hrun
  exact ⟨rfl, rfl⟩

theorem ledger_title {draft next : Draft} {notices : List Notice}
    (hrun : Pass.title.run source registries draft = .ok (next, notices)) :
    ∃ first others, draft.ledger.directives.named PageTitle.directive = first :: others ∧
      next.ledger =
        { draft.ledger with
          title := some (.ofDirective draft.ledger.flags.centerTitle first)
          directives := draft.ledger.directives.without PageTitle.directive } ∧
      notices =
        others.map (fun later => ⟨.titleRepeated, some later.offset⟩) ++
          if first.argument.isEmpty then [⟨.titleEmpty, some first.offset⟩] else [] := by
  obtain ⟨first, others, hfound, rfl, rfl⟩ := title_eq_ok hrun
  exact ⟨first, others, hfound, rfl, rfl⟩

theorem ledger_contributors {draft next : Draft} {notices : List Notice}
    (hrun : Pass.contributors.run source registries draft = .ok (next, notices)) :
    next.ledger =
        { draft.ledger with
          contributors := Contributor.firsts (Contributor.credited registries
            (draft.ledger.directives.named Contributor.directive))
          directives := draft.ledger.directives.without Contributor.directive } ∧
      notices = Contributor.warnings registries []
        (draft.ledger.directives.named Contributor.directive) := by
  have hread := Contributor.ofDirectives_firsts registries []
    (draft.directives.named Contributor.directive)
  simp only [Pass.run, readContributors] at hrun
  rw [show ([] : List Contributor) = Contributor.firsts (Contributor.credited registries [])
    from rfl, hread] at hrun
  cases hrun
  exact ⟨rfl, rfl⟩

theorem ledger_residual {draft next : Draft} {notices : List Notice}
    (hrun : Pass.residualDirectives.run source registries draft = .ok (next, notices)) :
    next.ledger = draft.ledger ∧ notices = draft.ledger.directives.unknownNotices := by
  cases hrun
  exact ⟨rfl, rfl⟩

theorem ledger_notes {draft next : Draft} {notices : List Notice}
    (hrun : Pass.notes.run source registries draft = .ok (next, notices)) :
    next.ledger =
      { draft.ledger with
        directives := draft.ledger.directives.without Directive.noteName } := by
  cases hrun
  rfl

/-- What is left of a table once every name that means something is taken. -/
theorem unknown_eq (directives : List Directive) :
    (((((DirectiveTable.mk directives).withoutFlags.without Command.directive).without
      PageTitle.directive).without Contributor.directive).without Directive.noteName) =
      ⟨Directive.unknown directives⟩ := by
  simp only [DirectiveTable.withoutFlags, Flag.all, List.foldl_cons, List.foldl_nil,
    DirectiveTable.without, List.filter_filter, Directive.unknown]
  congr 1
  refine List.filter_congr fun directive _ => ?_
  rw [Bool.eq_iff_iff]
  simp [Directive.knownNames, Flag.directive, Command.directive, PageTitle.directive,
    Contributor.directive, Directive.noteName]
  tauto

/-- Taking other names first changes nothing about the directives of a name. -/
theorem named_taken (directives : List Directive) :
    (DirectiveTable.mk directives).withoutFlags.named Command.directive =
      Directive.named "command" directives ∧
    ((DirectiveTable.mk directives).withoutFlags.without Command.directive).named
      PageTitle.directive = Directive.named "title" directives ∧
    (((DirectiveTable.mk directives).withoutFlags.without Command.directive).without
      PageTitle.directive).named Contributor.directive =
        Directive.named "contributor" directives := by
  have hnamed : ∀ {name : String}, (∀ flag : Flag, name ≠ flag.directive) →
      (DirectiveTable.mk directives).withoutFlags.named name = Directive.named name directives :=
    named_withoutFlags _
  refine ⟨hnamed fun flag => by cases flag <;> decide, ?_, ?_⟩
  · rw [named_without _ (by decide)]
    exact hnamed fun flag => by cases flag <;> decide
  · rw [named_without _ (by decide), named_without _ (by decide)]
    exact hnamed fun flag => by cases flag <;> decide

/-- The passes after the lift, given the directives that were lifted. -/
theorem account_of_lifted {directives : List Directive} {lifted final : Draft}
    (hlifted : lifted.ledger = { body := [], directives := ⟨directives⟩ })
    (hrun : (runPasses source registries (rearranging ++ .notes :: afterNotes) lifted).2 =
      .ok final) :
    ∃ first, (Directive.named "title" directives).head? = some first ∧
      final.ledger = account registries directives first ∧
      (runPasses source registries (rearranging ++ .notes :: afterNotes) lifted).1.filterMap
          (Happening.noticeOf? Remark.isAboutDirective) =
        Directive.warnings registries directives := by
  have horder : rearranging ++ .notes :: afterNotes =
      ([.blockquotes, .trim, .paragraphs] : List Pass) ++
        Pass.flags :: Pass.commands :: Pass.title :: Pass.contributors ::
          (([.notes, .externalLinks, .embeddedFiles, .lowering] : List Pass) ++
            [Pass.residualDirectives]) := rfl
  rw [horder] at hrun ⊢
  obtain ⟨quoted, hquoted, hrun⟩ := runPasses_append_eq_ok hrun
  rw [noticesOf_append (Pass.not_isAboutDirective (by decide)) hquoted]
  obtain ⟨flagged, flagNotices, hflags, hrun⟩ := runPasses_cons_eq_ok hrun
  obtain ⟨commanded, commandNotices, hcommands, hrun⟩ := runPasses_cons_eq_ok hrun
  obtain ⟨titled, titleNotices, htitle, hrun⟩ := runPasses_cons_eq_ok hrun
  obtain ⟨credited, creditNotices, hcredits, hrun⟩ := runPasses_cons_eq_ok hrun
  obtain ⟨lowered, hlowered, hrun⟩ := runPasses_append_eq_ok hrun
  obtain ⟨last, lastNotices, hlast, hrun⟩ := runPasses_cons_eq_ok hrun
  rw [noticesOf_consuming (by decide) hflags, noticesOf_consuming (by decide) hcommands,
    noticesOf_consuming (by decide) htitle, noticesOf_consuming (by decide) hcredits,
    noticesOf_append (Pass.not_isAboutDirective (by decide)) hlowered,
    noticesOf_consuming (by decide) hlast]
  obtain ⟨noted, noteNotices, hnotes, hlowered⟩ := runPasses_cons_eq_ok hlowered
  have hquoted := (ledger_runPasses (by decide) hquoted).trans hlifted
  obtain ⟨hflagged, rfl⟩ := ledger_flags hflags
  rw [hquoted] at hflagged ⊢
  dsimp only at hflagged ⊢
  obtain ⟨hcommanded, rfl⟩ := ledger_commands hcommands
  rw [hflagged] at hcommanded ⊢
  dsimp only at hcommanded ⊢
  obtain ⟨first, others, hfirst, htitled, rfl⟩ := ledger_title htitle
  rw [hcommanded] at hfirst htitled
  dsimp only at hfirst htitled
  obtain ⟨hcredited, rfl⟩ := ledger_contributors hcredits
  rw [htitled] at hcredited ⊢
  dsimp only at hcredited ⊢
  have hnoted := ledger_notes hnotes
  rw [hcredited] at hnoted
  dsimp only at hnoted
  have hedited := (ledger_runPasses (by decide) hlowered).trans hnoted
  obtain ⟨hlasted, rfl⟩ := ledger_residual hlast
  rw [hedited] at hlasted ⊢
  dsimp only at hlasted ⊢
  cases hrun
  obtain ⟨hcommand, htitles, hcontributor⟩ := named_taken directives
  have hfirst : Directive.named "title" directives = first :: others := htitles.symm.trans hfirst
  refine ⟨first, by rw [hfirst]; rfl, ?_, ?_⟩
  · rw [hlasted, account, ← unknown_eq, ← hcommand, ← hcontributor]
  · rw [Directive.warnings, hfirst, ← unknown_eq, ← hcommand, ← hcontributor]
    have hempty : (if first.argument.isEmpty then
        [(⟨.titleEmpty, some first.offset⟩ : Notice)] else []) =
        (([first].filter (·.argument.isEmpty)).map fun first =>
          ⟨.titleEmpty, some first.offset⟩) := by
      by_cases hargument : first.argument.isEmpty <;> simp [hargument]
    simp only [hempty, runPasses, List.filterMap_nil, List.append_nil, List.append_assoc]
    rfl

/-- The passes up to the lift move the directives of the source to the table. -/
theorem lifted_directives {body : Forest} {lifted : Draft}
    (hbody : Forest.ofLexemes source.lexemes = .ok body)
    (hrun : (runPasses source registries [.validate, .prune, .directives] { body }).2 =
      .ok lifted) :
    lifted.ledger = { body := [], directives := ⟨source.directives⟩ } ∧
      (runPasses source registries [.validate, .prune, .directives] { body }).1.filterMap
          (Happening.noticeOf? Remark.isAboutDirective) =
        source.directives.map fun directive =>
          ⟨.directiveFound directive.name, some directive.offset⟩ := by
  rw [show [Pass.validate, .prune, .directives] = [.validate, .prune] ++ [.directives] from rfl]
    at hrun ⊢
  obtain ⟨pruned, hpruned, hlift⟩ := runPasses_append_eq_ok hrun
  rw [noticesOf_append (Pass.not_isAboutDirective (by decide)) hpruned]
  obtain ⟨found, notices, hfound, hdone⟩ := runPasses_cons_eq_ok hlift
  rw [noticesOf_consuming (by decide) hfound]
  obtain ⟨checked, _, hcheck, hpruned⟩ := runPasses_cons_eq_ok hpruned
  obtain ⟨_, _, hprune, hpruned⟩ := runPasses_cons_eq_ok hpruned
  cases hprune
  cases hpruned
  cases hdone
  obtain ⟨hok, rfl, -⟩ := validate_eq_ok hcheck
  rw [Source.directives_eq_ofForest hbody hok]
  cases hfound
  exact ⟨rfl, List.append_nil _⟩

end Draft

open Draft

/-- The switches, commands, title and contributors of a page whose ledger is accounted for. -/
theorem Document.accounts_of_ledger {registries : Registries} {directives : List Directive}
    {first : Directive} {final : Draft} {document : Document}
    (hfirst : (Directive.named "title" directives).head? = some first)
    (hledger : final.ledger = account registries directives first)
    (hfinish : final.finish = .ok document) : document.Accounts registries directives := by
  have htitle : final.title =
      some (.ofDirective (PageFlags.ofTable ⟨directives⟩).centerTitle first) :=
    congrArg Draft.title hledger
  have hflags : final.flags = .ofTable ⟨directives⟩ := congrArg Draft.flags hledger
  have hunresolved : final.directives = ⟨Directive.unknown directives⟩ :=
    congrArg Draft.directives hledger
  rw [Draft.finish, htitle] at hfinish
  cases hfinish
  have hnames : final.directives.entries.map (·.1) = final.directives.names := by
    simp [DirectiveTable.entries, Function.comp_def]
  refine
    { title := ⟨first, hfirst, rfl, by rw [hflags]⟩
      flags := ?_
      commands := congrArg Draft.commands hledger
      contributors := congrArg Draft.contributors hledger
      unresolved := congrArg DirectiveTable.directives hunresolved
      ascending := hnames ▸ final.directives.pairwise_names
      grouped := ?_
      conserved := Directive.perm_named_unknown (by decide) directives }
  · intro flag
    have hset : ∀ name : String, (!((DirectiveTable.mk directives).named name).isEmpty) =
        directives.any (·.name == name) := by
      intro name
      rw [Bool.eq_iff_iff]
      simp [DirectiveTable.named]
    rw [hflags]
    cases flag <;> exact hset _
  · intro name group
    rw [DirectiveTable.mem_entries, hunresolved]
    rfl

/-- Every directive line of a page that compiles is accounted for exactly once. The lift
takes one directive per mark out of the tree, in source order, and leaves none there. What
the page says about itself and what it is warned of follow from these directives and the
registries alone. -/
theorem Source.compile_accounts_for_directives {source : Source} {registries : Registries}
    {document : Document} (hcompile : (source.compile registries).2 = .ok document) :
    (∃ body lifted, Forest.ofLexemes source.lexemes = .ok body ∧
      (runPasses source registries [.validate, .prune, .directives] { body }).2 = .ok lifted ∧
      lifted.directives = ⟨source.directives⟩ ∧
      ∀ tree ∈ lifted.body.subtrees, tree.kind ≠ .aggregate (.line .directive)) ∧
    source.directives.map (·.offset) =
      (source.tokens.filter (·.kind == .lineMark .directive)).map (·.span.start) ∧
    document.Accounts registries source.directives ∧
    (source.compile registries).1.filterMap (Happening.noticeOf? Remark.isAboutDirective) =
      (source.directives.map fun directive =>
        ⟨.directiveFound directive.name, some directive.offset⟩) ++
      Directive.warnings registries source.directives := by
  obtain ⟨body, final, hbody, hrun, hfinish, hcompiled⟩ := compile_eq_ok hcompile
  have horder : Pass.inOrder =
      [.validate, .prune, .directives] ++ (rearranging ++ .notes :: afterNotes) := rfl
  rw [horder] at hrun hcompiled
  obtain ⟨lifted, hlifted, hrest⟩ := runPasses_append_eq_ok hrun
  obtain ⟨hledger, hfound⟩ := lifted_directives hbody hlifted
  obtain ⟨first, hfirst, hfinal, hwarnings⟩ := account_of_lifted hledger hrest
  refine ⟨⟨body, lifted, hbody, hlifted, congrArg Draft.directives hledger, ?_⟩,
    source.map_offset_directives, Document.accounts_of_ledger hfirst hfinal hfinish, ?_⟩
  · intro tree hmem hdirective
    have hsound := (sound_of_lifted (Forest.built_ofLexemes hbody) hlifted).1
    obtain ⟨top, htop, hbelow⟩ := Forest.mem_subtrees.mp hmem
    have htree := (Forest.obeys_iff.mp hsound top htop).of_mem_subtrees hbelow
    apply htree.data.present
    rw [show tree.data.kind = _ from hdirective]
    decide
  · rw [hcompiled, List.cons_append, List.filterMap_cons_none rfl, List.filterMap_append,
      runPasses_append_happenings hlifted, List.filterMap_append, hfound, hwarnings]
    exact List.append_nil _

/-- A page that says everything about itself twice, and something that means nothing. -/
def Directive.repeatedExample : Source :=
  ⟨#["!", "t", "i", "t", "l", "e", " ", "T", "\n", "!", "n", "o", "e", "d", "i", "t", "\n",
    "!", "z", "=", "1", "\n", "!", "n", "o", "e", "d", "i", "t", "\n", "!", "t", "i", "t", "l",
    "e", "\n", "!", "c", "o", "m", "m", "a", "n", "d", "\n", "x"]⟩

theorem Source.compile_accounts_for_repeated :
    ∃ document, (Directive.repeatedExample.compile Registries.empty).2 = .ok document ∧
      Directive.repeatedExample.directives.length = 6 ∧
      document.Accounts Registries.empty Directive.repeatedExample.directives := by
  have hok : (Directive.repeatedExample.compile Registries.empty).2.isOk = true := by
    decide +kernel
  cases hcompile : (Directive.repeatedExample.compile Registries.empty).2 with
  | error fault =>
      rw [hcompile] at hok
      cases hok
  | ok document =>
      obtain ⟨-, -, haccounts, -⟩ := Source.compile_accounts_for_directives hcompile
      exact ⟨document, rfl, by decide +kernel, haccounts⟩

end PageMarkup
