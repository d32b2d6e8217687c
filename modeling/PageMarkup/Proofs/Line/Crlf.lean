import PageMarkup.Proofs.Likeness.Blocks
import PageMarkup.Proofs.Line.Endings
import PageMarkup.Proofs.Line.Kinds

/-! # Sources with carriage returns before their line feeds

When every line feed of a text gets a carriage return before it, the clusters of the text
stay where they are: those that are line feeds become pairs, and the others are the same.
So the lexemes stand at the same places, and only the texts of the newlines differ. A line
end is no part of a slug, so headings whose texts differ in nothing else have the same slug,
whatever a registry puts between their lines.
-/

namespace PageMarkup

/-! ## Slugs -/

namespace Slug

open Text

/-- What the clusters of a list of characters contribute to a slug. -/
def kept (cs : List Char) : List Char := (clusterLists cs).flatMap slugCluster

/-- A line end leaves nothing in a slug, and what follows it is read as if nothing stood before. -/
theorem kept_append_lineFeed (before after : List Char) :
    kept (before ++ '\n' :: after) = kept before ++ kept after := by
  obtain ⟨line, ending, hending, hafter, hbefore⟩ := clusterLists_line before
  have hnothing : slugCluster ending = [] := by cases hending <;> decide
  have hreturn : slugCluster ['\r'] = [] := by decide
  have hline : kept before = line.flatMap slugCluster := by
    rw [kept]
    rcases hbefore with hbefore | hbefore <;> simp [hbefore, hreturn]
  rw [hline, kept, hafter, List.flatMap_append, List.flatMap_cons, hnothing, List.nil_append, kept]

theorem kept_append_carriageReturn (before : List Char) : kept (before ++ ['\r']) = kept before := by
  have hreturn : slugCluster ['\r'] = [] := by decide
  rw [kept, clusterLists_append_carriageReturn, List.flatMap_append, kept]
  simp [hreturn]

/-- A text can be told apart from one with other line ends by no slug that goes on after it. -/
theorem kept_append_sameLines {as bs : List Char} (hsame : SameLines as bs) {xs ys : List Char}
    (hrest : ∀ before, kept (before ++ xs) = kept (before ++ ys)) (before : List Char) :
    kept (before ++ (as ++ xs)) = kept (before ++ (bs ++ ys)) := by
  induction hsame generalizing before with
  | nil => exact hrest before
  | @char c as bs _ _ ih =>
      have hnext := ih (before ++ [c])
      simpa using hnext
  | @both as bs _ ih =>
      have hreturn : before ++ ('\r' :: '\n' :: bs ++ ys) =
          (before ++ ['\r']) ++ '\n' :: (bs ++ ys) := by simp
      have hnext : kept (as ++ xs) = kept (bs ++ ys) := ih []
      rw [List.cons_append, kept_append_lineFeed, hreturn, kept_append_lineFeed,
        kept_append_carriageReturn, hnext]

theorem kept_join {as bs : List String}
    (hparts : List.Forall₂ (fun a b => a = b ∨ SameLines a.toList b.toList) as bs)
    (before : List Char) :
    kept (before ++ (String.join as).toList) = kept (before ++ (String.join bs).toList) := by
  induction hparts generalizing before with
  | nil => rfl
  | cons hpart _ ih =>
      rw [String.join_cons, String.join_cons, String.toList_append, String.toList_append]
      rcases hpart with rfl | hsame
      · rw [← List.append_assoc, ← List.append_assoc, ih]
      · exact kept_append_sameLines hsame ih before

theorem baseSlug_join {as bs : List String}
    (hparts : List.Forall₂ (fun a b => a = b ∨ SameLines a.toList b.toList) as bs) :
    baseSlug (String.join as) = baseSlug (String.join bs) := by
  have hslug : slugify (String.join as) = slugify (String.join bs) :=
    congrArg String.ofList (kept_join hparts [])
  rw [baseSlug, baseSlug, hslug]

end Slug

/-! ## The likeness -/

open Text in
/-- The likeness of pages that stand at the same places and differ in their line ends. -/
def Likeness.lineEnds : Likeness where
  text a b := SameLines a.toList b.toList
  placed := True
  plain hplain := .refl fun hmem => (hplain _ hmem).1 rfl
  append hfirst hsecond := by simpa using hfirst.append hsecond
  isEmpty := sameLines_isEmpty
  isBlank hsame := hsame.all isBlank_carriageReturn
  trimStart := sameLines_trimStart
  trimEnd := sameLines_trimEnd
  link := Link.sameLines_targetAndLabel
  embed hsame :=
    have hparse := Embed.sameLines_parse hsame
    ⟨hparse.name, hparse.width, hparse.align, hparse.caption⟩
  slug := Slug.baseSlug_join

/-! ## Clusters -/

namespace Text

theorem toList_crlf (text : String) : (crlf text).toList = text.toList.flatMap withReturn :=
  String.toList_ofList

theorem withReturn_of_ne {c : Char} (hc : c ≠ '\n') : withReturn c = [c] := if_neg hc

theorem sameLines_withReturn {cs : List Char} (hplain : '\r' ∉ cs) :
    SameLines cs (cs.flatMap withReturn) := by
  induction cs with
  | nil => exact .nil
  | cons c rest ih =>
      rw [List.mem_cons, not_or] at hplain
      rw [List.flatMap_cons, withReturn]
      split
      next hnewline =>
        subst hnewline
        exact .both (ih hplain.2)
      next => exact .char (Ne.symm hplain.1) (ih hplain.2)

theorem sameLines_crlf {text : String} (hplain : '\r' ∉ text.toList) :
    SameLines text.toList (crlf text).toList := by
  rw [toList_crlf]
  exact sameLines_withReturn hplain

theorem flatMap_withReturn_of_notMem {cs : List Char} (hline : '\n' ∉ cs) :
    cs.flatMap withReturn = cs := by
  refine Eq.trans (List.flatMap_congr fun c hmem => withReturn_of_ne ?_)
    (List.flatMap_singleton' cs)
  rintro rfl
  exact hline hmem

theorem crlf_of_notMem {text : String} (hline : '\n' ∉ text.toList) : crlf text = text := by
  rw [crlf, flatMap_withReturn_of_notMem hline, String.ofList_toList]

theorem last_bare_lineFeed_ne : (Context.bare .lineFeed).last ≠ .carriageReturn := nofun

theorem clustersFrom_crlf {cs : List Char} (hplain : '\r' ∉ cs) {context : Context}
    (hlast : context.last ≠ .carriageReturn) {current : List Char} (hline : '\n' ∉ current) :
    clustersFrom context current (cs.flatMap withReturn) =
      (clustersFrom context current cs).map (·.flatMap withReturn) := by
  have hcurrent : current.reverse.flatMap withReturn = current.reverse :=
    flatMap_withReturn_of_notMem (by simpa using hline)
  induction cs generalizing context current with
  | nil => simp [clustersFrom, hcurrent]
  | cons c rest ih =>
      rw [List.mem_cons, not_or] at hplain
      rw [List.flatMap_cons]
      by_cases hnewline : c = '\n'
      · subst hnewline
        -- the rest is cut as after any line feed
        have hrest := ih hplain.2 last_bare_lineFeed_ne List.not_mem_nil rfl
        rw [clustersFrom_bare_lineFeed, clustersFrom_bare_lineFeed, List.map_cons] at hrest
        rw [show withReturn '\n' = ['\r', '\n'] from rfl, List.cons_append, List.singleton_append,
          clustersFrom_carriageReturn, clustersFrom_lineFeed hlast, (List.cons.inj hrest).2]
        simp [hcurrent, withReturn]
      · have hnext := Context.last_next_ne (Ne.symm hplain.1) context
        rw [withReturn_of_ne hnewline, List.singleton_append, clustersFrom, clustersFrom]
        split
        · refine ih hplain.2 hnext (by simp [Ne.symm hnewline, hline]) ?_
          simp [hcurrent, withReturn_of_ne hnewline]
        · rw [List.map_cons, hcurrent, ih hplain.2 hnext (by simp [Ne.symm hnewline])
            (by simp [withReturn_of_ne hnewline])]

/-- A carriage return and its line feed are one cluster. -/
theorem clusters_crlf {text : String} (hplain : '\r' ∉ text.toList) :
    clusters (crlf text) = (clusters text).map crlf := by
  have hempty := clustersFrom_crlf hplain last_bare_lineFeed_ne List.not_mem_nil
  rw [clustersFrom_bare_lineFeed, clustersFrom_bare_lineFeed, List.map_cons] at hempty
  rw [clusters, toList_crlf, (List.cons.inj hempty).2, clusters, List.map_map, List.map_map]
  simp [Function.comp_def, crlf]

end Text

/-! ## Line by line -/

namespace Lexeme

/-- What holds of texts and of texts put together holds of joined texts. -/
theorem forall_coalesce {P : String → Prop} (happend : ∀ {a b}, P a → P b → P (a ++ b))
    {lexemes : List Lexeme} (hlexemes : ∀ lexeme ∈ lexemes, P lexeme.text) :
    ∀ lexeme ∈ coalesce lexemes, P lexeme.text := by
  induction lexemes with
  | nil => exact nofun
  | cons lexeme rest ih =>
      obtain ⟨hlexeme, hrest⟩ := List.forall_mem_cons.mp hlexemes
      have hothers := ih hrest
      change ∀ joined ∈ prepend lexeme (coalesce rest), P joined.text
      unfold prepend
      split
      next => simpa using hlexeme
      next next others hcoalesce =>
        rw [hcoalesce, List.forall_mem_cons] at hothers
        split
        · exact List.forall_mem_cons.mpr ⟨happend hlexeme hothers.1, hothers.2⟩
        · exact List.forall_mem_cons.mpr ⟨hlexeme, List.forall_mem_cons.mpr hothers⟩

end Lexeme

namespace Source

/-- Sources are lines: what holds of a single line, and of a line and a newline before a source
of which it holds, holds of every source. -/
theorem line_induction {P : List String → Prop} (single : ∀ line, Unbroken line → P line)
    (more : ∀ line ending rest, Unbroken line → isNewline ending = true → P rest →
      P (line ++ ending :: rest)) (clusters : List String) : P clusters := by
  suffices hprefix : ∀ line, Unbroken line → P (line ++ clusters) from hprefix [] nofun
  induction clusters with
  | nil =>
      intro line hline
      rw [List.append_nil]
      exact single line hline
  | cons cluster rest ih =>
      intro line hline
      cases hcluster : isNewline cluster with
      | true => exact more line cluster rest hline hcluster (ih [] nofun)
      | false =>
          have hlonger : Unbroken (line ++ [cluster]) := by
            intro other hmem
            rcases List.mem_append.mp hmem with hmem | hmem
            · exact hline other hmem
            · rwa [List.mem_singleton.mp hmem]
          simpa using ih _ hlonger

/-- Clusters without carriage returns. -/
def HasNoReturns (clusters : List String) : Prop := ∀ cluster ∈ clusters, '\r' ∉ cluster.toList

theorem hasNoReturns_clusters {text : String} (hplain : '\r' ∉ text.toList) :
    HasNoReturns (Text.clusters text) := by
  intro cluster hmem hreturn
  obtain ⟨cs, hcs, rfl⟩ := List.mem_map.mp hmem
  rw [String.toList_ofList] at hreturn
  rw [← Text.clusterLists_flatten text.toList] at hplain
  exact hplain (List.mem_flatten.mpr ⟨cs, hcs, hreturn⟩)

theorem HasNoReturns.join {texts : List String} (htexts : HasNoReturns texts) :
    '\r' ∉ (String.join texts).toList := by
  induction texts with
  | nil => decide
  | cons text rest ih =>
      obtain ⟨htext, hrest⟩ := List.forall_mem_cons.mp htexts
      rw [String.join_cons, String.toList_append, List.mem_append]
      rintro (hmem | hmem)
      · exact htext hmem
      · exact ih hrest hmem

theorem notMem_slice {clusters : List String} (hplain : HasNoReturns clusters) (span : Span) :
    '\r' ∉ ((ofClusters clusters).slice span).toList := by
  refine HasNoReturns.join fun cluster hmem => ?_
  obtain ⟨offset, -, hcluster⟩ := List.mem_filterMap.mp hmem
  rw [cluster?_ofClusters] at hcluster
  split at hcluster
  · cases hcluster
    decide
  · exact hplain cluster (List.mem_of_getElem? hcluster)

theorem notMem_openLexemes {clusters : List String} (hplain : HasNoReturns clusters) :
    ∀ lexeme ∈ (ofClusters clusters).openLexemes, '\r' ∉ lexeme.text.toList := by
  refine Lexeme.forall_coalesce (P := fun text => '\r' ∉ text.toList) ?_ ?_
  · intro a b ha hb
    simp [ha, hb]
  · intro lexeme hmem
    obtain ⟨token, -, rfl⟩ := List.mem_map.mp hmem
    exact notMem_slice hplain token.span

theorem isNewline_crlf {cluster : String} (hnewline : isNewline cluster = true) :
    isNewline (Text.crlf cluster) = true := by
  have hmem : '\n' ∈ cluster.toList := by simpa [isNewline] using hnewline
  have hpair : '\n' ∈ (Text.crlf cluster).toList := by
    rw [Text.toList_crlf]
    exact List.mem_flatMap.mpr ⟨'\n', hmem, by decide⟩
  simpa [isNewline] using hpair

theorem map_crlf_of_unbroken {line : List String} (hline : Unbroken line) :
    line.map Text.crlf = line := by
  refine (List.map_congr_left fun cluster hmem => ?_).trans (List.map_id line)
  refine Text.crlf_of_notMem fun hnewline => ?_
  have hbroken : isNewline cluster = true := by simpa [isNewline] using hnewline
  rw [hline cluster hmem] at hbroken
  cases hbroken

theorem like_refl {lexemes : List Lexeme} (hplain : ∀ lexeme ∈ lexemes, '\r' ∉ lexeme.text.toList) :
    List.Forall₂ (Lexeme.Like .lineEnds) lexemes lexemes :=
  List.forall₂_same.mpr fun lexeme hmem =>
    ⟨rfl, .refl (hplain lexeme hmem), fun _ => rfl, fun _ => rfl⟩

theorem like_shift {lexemes others : List Lexeme}
    (hlike : List.Forall₂ (Lexeme.Like .lineEnds) lexemes others) (distance : Nat) :
    List.Forall₂ (Lexeme.Like .lineEnds) (lexemes.map (Lexeme.shift distance))
      (others.map (Lexeme.shift distance)) := by
  induction hlike with
  | nil => exact .nil
  | @cons lexeme other _ _ hlexeme _ ih =>
      refine .cons ⟨hlexeme.kind, hlexeme.text, hlexeme.exact, fun hplaced => ?_⟩ ih
      rw [Lexeme.shift, Lexeme.shift, hlexeme.place hplaced]

/-- The lexemes stand at the same places and differ in the texts of newlines only. -/
theorem like_lexemes_crlf {clusters : List String} (hplain : HasNoReturns clusters) :
    List.Forall₂ (Lexeme.Like .lineEnds) (ofClusters clusters).lexemes
      (ofClusters (clusters.map Text.crlf)).lexemes := by
  induction clusters using line_induction with
  | single line hline =>
      rw [map_crlf_of_unbroken hline, lexemes_eq]
      refine like_refl fun lexeme hmem => ?_
      rcases List.mem_append.mp hmem with hmem | hmem
      · exact notMem_openLexemes hplain lexeme hmem
      · obtain rfl := List.mem_singleton.mp hmem
        simp
  | more line ending rest hline hending ih =>
      have hfirst : HasNoReturns line := fun cluster hmem =>
        hplain cluster (List.mem_append_left _ hmem)
      have hending' := hplain ending (by simp)
      rw [List.map_append, List.map_cons, map_crlf_of_unbroken hline, lexemes_line line rest hending,
        lexemes_line line _ (isNewline_crlf hending)]
      refine List.rel_append (like_refl (notMem_openLexemes hfirst)) (.cons ?_ ?_)
      · exact ⟨rfl, Text.sameLines_crlf hending', fun hkind => absurd rfl hkind, fun _ => rfl⟩
      · exact like_shift (ih fun cluster hmem => hplain cluster (by simp [hmem])) _

theorem directives_crlf (clusters : List String) :
    (ofClusters (clusters.map Text.crlf)).directives = (ofClusters clusters).directives := by
  induction clusters using line_induction with
  | single line hline => rw [map_crlf_of_unbroken hline]
  | more line ending rest hline hending ih =>
      rw [List.map_append, List.map_cons, map_crlf_of_unbroken hline, directives_line line rest hending,
        directives_line line _ (isNewline_crlf hending), ih]

theorem lineStartsFrom_crlf (clusters : List String) (next : Nat) :
    lineStartsFrom next (clusters.map Text.crlf ++ ["\n"]) =
      lineStartsFrom next (clusters ++ ["\n"]) := by
  induction clusters generalizing next with
  | nil => rfl
  | cons cluster rest ih =>
      simp only [List.map_cons, List.cons_append, lineStartsFrom, ih]
      cases hnewline : isNewline cluster with
      | true => simp [isNewline_crlf hnewline]
      | false =>
          have hline : Unbroken [cluster] := by simpa [Unbroken] using hnewline
          have hsame : Text.crlf cluster = cluster := by simpa using map_crlf_of_unbroken hline
          simp [hsame, hnewline]

/-- Lines start at the same offsets. -/
theorem lineStarts_crlf (clusters : List String) :
    (ofClusters (clusters.map Text.crlf)).lineStarts = (ofClusters clusters).lineStarts := by
  simp [lineStarts, terminated, ofClusters, lineStartsFrom_crlf]

end Source

/-! ## Arguments -/

namespace Directive

open Text

theorem notMem_rest {marker : String} (hmarker : '\r' ∉ marker.toList) {opening : DirectiveOpening}
    (hopening : parseOpening? marker = some opening) : '\r' ∉ opening.rest.toList := by
  unfold parseOpening? at hopening
  split at hopening
  next body hbody =>
    rw [hbody, List.mem_cons, not_or] at hmarker
    have hbody : SameLines (String.ofList body).toList (String.ofList body).toList :=
      .refl (by simpa using hmarker.2)
    have hrest := (sameLines_splitBefore (p := fun c => c == '=' || isBlank c) (by decide)
      (by decide) hbody).2.notMem_carriageReturn
    dsimp only at hopening
    split at hopening <;> cases hopening <;> exact hrest
  next => cases hopening

/-- The argument of a directive is cut out of the texts of its line. -/
theorem notMem_argument {source : Source} {mark : Lexeme} {rest : List Lexeme}
    {directive : Directive} (hslice : '\r' ∉ (source.slice mark.span).toList)
    (hrest : ∀ lexeme ∈ rest, '\r' ∉ lexeme.text.toList)
    (hdirective : ofLine? source mark rest = some directive) :
    '\r' ∉ directive.argument.toList := by
  unfold ofLine? at hdirective
  split at hdirective
  next =>
    obtain ⟨opening, hopening, rfl⟩ := Option.map_eq_some_iff.mp hdirective
    have hline : '\r' ∉
        (String.join ((rest.takeWhile (·.kind != .newline)).map (·.text))).toList := by
      refine Source.HasNoReturns.join fun text hmem => ?_
      obtain ⟨lexeme, hlexeme, rfl⟩ := List.mem_map.mp hmem
      exact hrest lexeme ((List.takeWhile_sublist _).subset hlexeme)
    have hraw : SameLines
        (opening.rest ++ String.join ((rest.takeWhile (·.kind != .newline)).map (·.text))).toList
        (opening.rest ++ String.join ((rest.takeWhile (·.kind != .newline)).map (·.text))).toList :=
      .refl (by
        rw [String.toList_append, List.mem_append, not_or]
        exact ⟨notMem_rest hslice hopening, hline⟩)
    exact (sameLines_trim (sameLines_dropLeading (c := '=') (by decide) (by decide)
      (sameLines_trimStart hraw))).notMem_carriageReturn
  next => cases hdirective

theorem notMem_directives {clusters : List String} (hplain : Source.HasNoReturns clusters) :
    ∀ directive ∈ (Source.ofClusters clusters).directives, '\r' ∉ directive.argument.toList := by
  have hlexemes : ∀ lexeme ∈ (Source.ofClusters clusters).lexemes, '\r' ∉ lexeme.text.toList := by
    intro lexeme hmem
    rw [Source.lexemes_eq, List.mem_append, List.mem_singleton] at hmem
    rcases hmem with hmem | rfl
    · exact Source.notMem_openLexemes hplain lexeme hmem
    · simp
  unfold Source.directives
  generalize (Source.ofClusters clusters).lexemes = lexemes at hlexemes
  induction lexemes with
  | nil => exact nofun
  | cons mark rest ih =>
      obtain ⟨-, hrest⟩ := List.forall_mem_cons.mp hlexemes
      rw [ofLexemes]
      intro directive hmem
      rcases List.mem_append.mp hmem with hmem | hmem
      · exact notMem_argument (Source.notMem_slice hplain _) hrest (Option.mem_toList.mp hmem)
      · exact ih hrest directive hmem

end Directive

end PageMarkup
