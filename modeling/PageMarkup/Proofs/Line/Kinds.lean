import PageMarkup.Proofs.Line.Lexemes
import PageMarkup.Proofs.Text.Trimming

/-! # What a line consists of

The kinds of the tokens of a line are those that its glyphs can begin. A line that starts
with an exclamation mark is one mark of a directive and plain tokens after it, and its
name can be read off the line as well as off the mark.
-/

namespace PageMarkup

namespace Token

/-- A scan adds texts and what its glyphs begin. -/
theorem kind_scan {P : Kind → Prop} (htext : P .text) {glyphs : List Glyph}
    (hmarks : ∀ glyph ∈ glyphs, ∀ lineStart rest, P (markAt lineStart glyph rest).1)
    {done : List Token} (hdone : ∀ token ∈ done, P token.kind) (index skip : Nat) :
    ∀ token ∈ scan done index skip glyphs, P token.kind := by
  induction glyphs generalizing done index skip with
  | nil => exact hdone
  | cons glyph rest ih =>
      obtain ⟨hmark, hrest⟩ := List.forall_mem_cons.mp hmarks
      cases skip with
      | succ skip => exact ih hrest hdone _ _
      | zero =>
          have hstep : ∀ token ∈ (step done index glyph rest).1, P token.kind := by
            unfold step
            split_ifs
            · exact hdone
            · exact forall_mem_push htext (fun _ _ => htext) fun token hmem =>
                hdone token (List.mem_of_mem_tail hmem)
            · exact forall_mem_push (hmark _ _) (fun _ _ => htext) hdone
          exact ih hrest hstep _ _

/-- What a glyph begins, newlines and backslashes aside, is a text or a mark. -/
theorem markAt_cases {P : Kind → Prop} (htext : P .text) (hstyle : ∀ style, P (.styleMark style))
    (hstart : ∀ bracket, P (.bracketStart bracket)) (hend : ∀ bracket, P (.bracketEnd bracket))
    (hline : ∀ line, P (.lineMark line)) {glyph : Glyph} (hnewline : glyph ≠ .newline)
    (hbackslash : glyph ≠ .backslash) (lineStart : Bool) (rest : List Glyph) :
    P (markAt lineStart glyph rest).1 := by
  cases glyph with
  | newline => exact absurd rfl hnewline
  | backslash => exact absurd rfl hbackslash
  | bang | greater => cases lineStart <;> simp [markAt, htext, hline]
  | hash =>
      simp only [markAt, hashMark]
      split
      · exact hstyle _
      · exact htext
  | star =>
      simp only [markAt, starMark]
      split <;> exact hstyle _
  | equals =>
      simp only [markAt, equalsMark]
      split
      next _ hmark =>
        obtain ⟨level, -, rfl⟩ := Option.map_eq_some_iff.mp hmark
        exact hstyle _
      next => exact htext
  | openBracket =>
      simp only [markAt, bracketMark]
      split
      · exact htext
      all_goals exact hstart _
  | closeBracket =>
      simp only [markAt, bracketMark]
      split
      · exact htext
      all_goals exact hend _
  | openBrace => exact hstart _
  | closeBrace => exact hend _
  | carriageReturn | blank | other => exact htext

/-- Only a newline begins a newline. -/
theorem markAt_ne_newline {glyph : Glyph} (hglyph : glyph ≠ .newline) (lineStart : Bool)
    (rest : List Glyph) : (markAt lineStart glyph rest).1 ≠ .newline := by
  by_cases hbackslash : glyph = .backslash
  · subst hbackslash
    nofun
  · exact markAt_cases (P := (· ≠ .newline)) nofun nofun nofun nofun nofun hglyph hbackslash
      lineStart rest

section Bottom

/-- Tokens that nothing after them changes: the latest is neither a text nor a backslash. -/
def Settled (base : List Token) : Prop :=
  ∃ token before, base = token :: before ∧ token.kind ≠ .text ∧ token.kind ≠ .backslash

variable {base : List Token}

theorem push_over (hbase : Settled base) (kind : Kind) (span : Span) (done : List Token) :
    ∃ more, push kind span (done ++ base) = more ++ base := by
  obtain ⟨last, before, rfl, htext, -⟩ := hbase
  cases done with
  | nil => exact ⟨[⟨kind, span⟩], by simp [push, htext]⟩
  | cons token done =>
      simp only [List.cons_append, push]
      split
      · exact ⟨_ :: done, rfl⟩
      · exact ⟨_ :: token :: done, rfl⟩

theorem scan_over (hbase : Settled base) (done : List Token) (index skip : Nat)
    (glyphs : List Glyph) : ∃ more, scan (done ++ base) index skip glyphs = more ++ base := by
  induction glyphs generalizing done index skip with
  | nil => exact ⟨done, rfl⟩
  | cons glyph rest ih =>
      cases skip with
      | succ skip => exact ih done _ _
      | zero =>
          have hstep : ∃ more, (step (done ++ base) index glyph rest).1 = more ++ base := by
            unfold step
            split_ifs with hreturn hescape
            · exact ⟨done, rfl⟩
            · cases done with
              | nil =>
                  obtain ⟨last, before, rfl, -, hbackslash⟩ := hbase
                  simp [escapes, hbackslash] at hescape
              | cons token done => exact push_over hbase _ _ done
            · exact push_over hbase _ _ done
          obtain ⟨more, hmore⟩ := hstep
          simp only [scan, hmore]
          exact ih more _ _

end Bottom

end Token

namespace Source

/-- The clusters of a line end no line. -/
def Unbroken (line : List String) : Prop := ∀ cluster ∈ line, isNewline cluster = false

theorem ofCluster_ne_newline {cluster : String} (hcluster : isNewline cluster = false) :
    Glyph.ofCluster cluster ≠ .newline := by
  intro hglyph
  have hsees := Glyph.sees_ofCluster cluster
  rw [hglyph] at hsees
  cases hsees with
  | newline hline => exact Bool.noConfusion (hcluster.symm.trans hline)
  | marker _ hescapable => cases hescapable

/-- A line has no newline before its end. -/
theorem kind_openLexemes {line : List String} (hline : Unbroken line) :
    ∀ lexeme ∈ (ofClusters line).openLexemes, lexeme.kind ≠ .newline := by
  have hscan : ∀ token ∈ Token.scan [] 0 0 (line.map Glyph.ofCluster), token.kind ≠ .newline := by
    refine Token.kind_scan (P := (· ≠ .newline)) (by simp) ?_ (by simp) 0 0
    intro glyph hmem
    obtain ⟨cluster, hcluster, rfl⟩ := List.mem_map.mp hmem
    exact Token.markAt_ne_newline (ofCluster_ne_newline (hline cluster hcluster))
  intro lexeme hmem hkind
  have htext : lexeme.kind ≠ .text := by simp [hkind]
  obtain ⟨token, htoken, rfl⟩ := List.mem_map.mp (Lexeme.mem_of_mem_coalesce htext hmem)
  have hnot := hscan token (by simpa [openTokens] using htoken)
  unfold Lexeme.ofToken at hkind
  dsimp only at hkind
  split at hkind
  · cases hkind
  · exact hnot hkind

/-- A span covers the clusters that it counts. -/
theorem slice_drop_take {clusters : List String} {start count : Nat}
    (hcount : start + count ≤ clusters.length) :
    (ofClusters clusters).slice ⟨start, start + count⟩ =
      String.join ((clusters.drop start).take count) := by
  unfold slice
  congr 1
  change (List.range' start (start + count - start)).filterMap _ = _
  rw [Nat.add_sub_cancel_left]
  induction count with
  | zero => rfl
  | succ count ih =>
      have hget : (ofClusters clusters).cluster? (start + count) = some clusters[start + count] := by
        rw [cluster?_ofClusters, if_neg (by omega), List.getElem?_eq_getElem]
      rw [List.range'_concat, List.filterMap_append, ih (by omega), Nat.one_mul]
      have hdrop : count < (clusters.drop start).length := by
        rw [List.length_drop]
        omega
      simp [hget, List.take_succ_eq_append_getElem hdrop]

theorem slice_take {clusters : List String} {count : Nat} (hcount : count ≤ clusters.length) :
    (ofClusters clusters).slice ⟨0, count⟩ = String.join (clusters.take count) := by
  have hstart : 0 + count ≤ clusters.length := (Nat.zero_add count).le.trans hcount
  simpa only [Nat.zero_add, List.drop_zero] using slice_drop_take hstart

/-- The clusters of the mark of a directive after its exclamation mark. -/
def markLength (line : List String) : Nat :=
  ((line.map Glyph.ofCluster).takeWhile (!·.isBlank)).length

theorem markLength_le (line : List String) : markLength line ≤ line.length := by
  have hlength := (List.takeWhile_sublist (l := line.map Glyph.ofCluster) (!·.isBlank)).length_le
  rwa [List.length_map] at hlength

/-- A line that starts with an exclamation mark is scanned on from the mark. -/
theorem openTokens_bang (line : List String) :
    (ofClusters ("!" :: line)).openTokens =
      (Token.scan [⟨.lineMark .directive, ⟨0, markLength line + 1⟩⟩] 1 (markLength line)
        (line.map Glyph.ofCluster)).reverse := by
  have hbang : Glyph.ofCluster "!" = .bang := by decide
  rw [openTokens, glyphs_ofClusters, List.map_cons, hbang]
  simp [Token.scan, Token.step, Token.escapes, Token.markAt, Token.atLineStart, Token.push,
    markLength]

/-- The mark of a directive line is no part of the texts after it. -/
theorem openLexemes_of_openTokens {line : List String} {more : List Token}
    (htokens : (ofClusters ("!" :: line)).openTokens =
      ⟨.lineMark .directive, ⟨0, markLength line + 1⟩⟩ :: more) :
    (ofClusters ("!" :: line)).openLexemes =
      ⟨.lineMark .directive, ⟨0, markLength line + 1⟩,
        String.join ("!" :: line.take (markLength line))⟩ ::
          Lexeme.coalesce (more.map (Lexeme.ofToken (ofClusters ("!" :: line)))) := by
  have hlength : markLength line + 1 ≤ ("!" :: line).length := by simpa using markLength_le line
  have hslice := slice_take hlength
  have hmark : Lexeme.ofToken (ofClusters ("!" :: line))
        ⟨.lineMark .directive, ⟨0, markLength line + 1⟩⟩ =
      ⟨.lineMark .directive, ⟨0, markLength line + 1⟩,
        String.join ("!" :: line.take (markLength line))⟩ := by
    simp [Lexeme.ofToken, hslice]
  rw [openLexemes, htokens, List.map_cons, hmark]
  exact Lexeme.coalesce_append_cons (by simp) [] _

/-- A line that starts with an exclamation mark is one mark and what comes after it. -/
theorem openLexemes_bang (line : List String) :
    ∃ others, (ofClusters ("!" :: line)).openLexemes =
      ⟨.lineMark .directive, ⟨0, markLength line + 1⟩,
        String.join ("!" :: line.take (markLength line))⟩ :: others := by
  have hsettled : Token.Settled [⟨.lineMark .directive, ⟨0, markLength line + 1⟩⟩] :=
    ⟨_, [], rfl, by simp, by simp⟩
  obtain ⟨more, hscan⟩ := Token.scan_over hsettled [] 1 (markLength line)
    (line.map Glyph.ofCluster)
  have htokens : (ofClusters ("!" :: line)).openTokens =
      ⟨.lineMark .directive, ⟨0, markLength line + 1⟩⟩ :: more.reverse := by
    rw [openTokens_bang, ← List.nil_append [_], hscan, List.reverse_append]
    rfl
  exact ⟨_, openLexemes_of_openTokens htokens⟩

/-- A cluster that is blank and ends no line starts with white space. -/
theorem head_of_isBlank {cluster : String} (hcluster : isNewline cluster = false)
    (hblank : (Glyph.ofCluster cluster).isBlank = true) :
    ∃ c rest, cluster.toList = c :: rest ∧ Text.isBlank c = true := by
  have hsees := Glyph.sees_ofCluster cluster
  generalize Glyph.ofCluster cluster = glyph at hsees hblank
  cases hsees with
  | newline hline => exact Bool.noConfusion (hcluster.symm.trans hline)
  | carriageReturn hreturn => exact ⟨'\r', [], by rw [hreturn]; rfl, by decide⟩
  | marker _ hescapable =>
      cases glyph
      case newline | carriageReturn | blank => cases hescapable
      all_goals cases hblank
  | blank hhead =>
      obtain ⟨c, hc, hblank⟩ := (Option.any_eq_true _ _).mp hhead
      obtain ⟨rest, hlist⟩ := List.head?_eq_some_iff.mp hc
      exact ⟨c, rest, hlist, hblank⟩
  | other => cases hblank

/-- The mark of a directive ends before white space. -/
theorem isBlank_of_drop_mark {line : List String} {blank : String} {others : List String}
    (hdrop : line.drop (markLength line) = blank :: others) :
    (Glyph.ofCluster blank).isBlank = true := by
  induction line with
  | nil => cases hdrop
  | cons cluster line ih =>
      cases hblank : (Glyph.ofCluster cluster).isBlank with
      | false =>
          have hlength : markLength (cluster :: line) = markLength line + 1 := by
            simp [markLength, hblank]
          rw [hlength, List.drop_succ_cons] at hdrop
          exact ih hdrop
      | true =>
          have hlength : markLength (cluster :: line) = 0 := by simp [markLength, hblank]
          rw [hlength, List.drop_zero] at hdrop
          cases hdrop
          exact hblank

/-- What stands after the mark of a directive begins with white space. -/
theorem isBlank_after_mark {line : List String} (hline : Unbroken line) :
    ∀ c ∈ (String.join (line.drop (markLength line))).toList.head?, Text.isBlank c = true := by
  cases hdrop : line.drop (markLength line) with
  | nil => simp
  | cons blank others =>
      have hmem : blank ∈ line.drop (markLength line) := hdrop ▸ List.mem_cons_self
      obtain ⟨c, rest, hlist, hc⟩ :=
        head_of_isBlank (hline blank (List.mem_of_mem_drop hmem)) (isBlank_of_drop_mark hdrop)
      rw [String.join_cons, String.toList_append, hlist]
      simpa using hc

end Source

namespace Directive

/-- The name of a directive can be read off the whole line, and what the mark has after it goes
on with the line. -/
theorem parseOpening?_append {marker rest : String} {opening : DirectiveOpening}
    (hmarker : marker.toList ≠ []) (hrest : ∀ c ∈ rest.toList.head?, Text.isBlank c = true)
    (hopening : parseOpening? (marker ++ rest) = some opening) :
    ∃ found, parseOpening? marker = some found ∧ found.name = opening.name ∧
      found.subname = opening.subname ∧ found.rest ++ rest = opening.rest := by
  obtain ⟨c, body, hlist⟩ := List.exists_cons_of_ne_nil hmarker
  have hstop : ∀ c ∈ rest.toList.head?, (!(c == '=' || Text.isBlank c)) = false := by
    intro c hc
    simp [hrest c hc]
  have htake := Text.takeWhile_append_of_head hstop body
  have hdrop := Text.dropWhile_append_of_head hstop body
  unfold parseOpening? at hopening ⊢
  rw [String.toList_append, hlist, List.cons_append] at hopening
  rw [hlist]
  split at hopening
  next found heq =>
    obtain ⟨rfl, rfl⟩ := List.cons.inj heq
    simp only [Text.splitBefore, String.toList_ofList, htake, hdrop] at hopening ⊢
    split at hopening
    next subname hprefix =>
      cases hopening
      simp
    next hprefix =>
      cases hopening
      simp
  next => cases hopening

/-- A mark that can be read gives a directive, whatever stands after it. -/
theorem ofLine?_of_parse {source : Source} {mark : Lexeme} {found : DirectiveOpening}
    (hkind : mark.kind = .lineMark .directive)
    (hfound : parseOpening? (source.slice mark.span) = some found) (rest : List Lexeme) :
    ∃ directive, ofLine? source mark rest = some directive ∧ directive.name = found.name ∧
      directive.subname = found.subname ∧ directive.offset = mark.span.start := by
  rw [ofLine?, if_pos hkind, hfound]
  exact ⟨_, rfl, rfl, rfl, rfl⟩

/-- A directive that is no note has no second name. -/
theorem subname_of_parseOpening? {marker : String} {opening : DirectiveOpening}
    (hopening : parseOpening? marker = some opening) (hname : opening.name ≠ noteName) :
    opening.subname = "" := by
  unfold parseOpening? at hopening
  split at hopening
  next =>
    dsimp only at hopening
    split at hopening
    next =>
      cases hopening
      exact absurd rfl hname
    next =>
      cases hopening
      rfl
  next => cases hopening

end Directive

/-- A line by itself is one directive, and what comes after its mark opens nothing. -/
structure Source.DirectiveLine (line : List String) (mark : Lexeme) (others : List Lexeme)
    (directive : Directive) : Prop where
  lexemes : (ofClusters line).openLexemes = mark :: others
  kind : mark.kind = .lineMark .directive
  unbroken : ∀ lexeme ∈ others, lexeme.kind ≠ .newline
  directives : (ofClusters line).directives = [directive]
  offset : directive.offset = 0

/-- Marks of directives start lines, so there is none where no line starts. -/
theorem Lexeme.noDirective_of_chain {previous : Lexeme} {lexemes : List Lexeme}
    (hchain : LineMarksStartLines (previous :: lexemes)) (hprevious : previous.kind ≠ .newline)
    (hlexemes : ∀ lexeme ∈ lexemes, lexeme.kind ≠ .newline) : NoDirective lexemes := by
  induction lexemes generalizing previous with
  | nil => nofun
  | cons lexeme rest ih =>
      obtain ⟨hfollows, hchain⟩ := List.isChain_cons_cons.mp hchain
      obtain ⟨hlexeme, hrest⟩ := List.forall_mem_cons.mp hlexemes
      refine List.forall_mem_cons.mpr ⟨fun hkind => ?_, ih hchain hlexeme hrest⟩
      exact hprevious (hfollows _ hkind)

/-- A line that starts with an exclamation mark is the directive that it names. -/
theorem Source.directiveLine_of_bang {line : List String} (hhead : line.head? = some "!")
    (hline : Unbroken line) {opening : DirectiveOpening}
    (hopening : Directive.parseOpening? (String.join line) = some opening) :
    ∃ mark others directive, DirectiveLine line mark others directive ∧
      directive.name = opening.name ∧ directive.subname = opening.subname := by
  obtain ⟨rest, rfl⟩ := List.head?_eq_some_iff.mp hhead
  obtain ⟨others, hlexemes⟩ := openLexemes_bang rest
  have hkinds := kind_openLexemes hline
  rw [hlexemes, List.forall_mem_cons] at hkinds
  have hrest : Unbroken rest := fun cluster hmem => hline cluster (List.mem_cons_of_mem _ hmem)
  have hjoin : String.join ("!" :: rest) =
      String.join ("!" :: rest.take (markLength rest)) ++
        String.join (rest.drop (markLength rest)) := by
    rw [← String.join_append, List.cons_append, List.take_append_drop]
  rw [hjoin] at hopening
  obtain ⟨found, hfound, hname, hsubname, -⟩ := Directive.parseOpening?_append
    (by simp [String.join_cons]) (isBlank_after_mark hrest) hopening
  have hlength : markLength rest + 1 ≤ ("!" :: rest).length := by simpa using markLength_le rest
  have hslice := slice_take hlength
  have hchain := (ofClusters ("!" :: rest)).lineMarks_lexemes
  rw [lexemes_eq, hlexemes] at hchain
  have hplain : Lexeme.NoDirective others :=
    Lexeme.noDirective_of_chain (List.isChain_append.mp hchain).1 (by simp) hkinds.2
  have hlast : Lexeme.NoDirective (others ++ [⟨.newline, {}, "\n"⟩]) := by
    intro lexeme hmem
    rcases List.mem_append.mp hmem with hmem | hmem
    · exact hplain lexeme hmem
    · simp [List.mem_singleton.mp hmem]
  have hnone : Directive.ofLexemes (ofClusters ("!" :: rest))
      (others ++ [⟨.newline, {}, "\n"⟩] ++ []) = [] := Directive.ofLexemes_append hlast []
  rw [List.append_nil] at hnone
  have hmarker : Directive.parseOpening? ((ofClusters ("!" :: rest)).slice ⟨0, markLength rest + 1⟩) =
      some found := by
    rw [hslice, List.take_succ_cons, hfound]
  have hmark : (Lexeme.mk (.lineMark .directive) ⟨0, markLength rest + 1⟩
      (String.join ("!" :: rest.take (markLength rest)))).kind = .lineMark .directive := rfl
  obtain ⟨directive, hdirective, hname', hsubname', hoffset⟩ :=
    Directive.ofLine?_of_parse hmark hmarker (others ++ [⟨.newline, {}, "\n"⟩])
  refine ⟨_, others, directive, ⟨hlexemes, rfl, hkinds.2, ?_, hoffset⟩, hname'.trans hname,
    hsubname'.trans hsubname⟩
  rw [directives_eq, hlexemes, List.cons_append, Directive.ofLexemes, hnone, hdirective]
  rfl

end PageMarkup
