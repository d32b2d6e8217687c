import PageMarkup.Proofs.Line.Lexemes

/-! # Literal lines

A backslash before every marker of a line takes all meaning out of it: the line is scanned
into texts only, and the backslashes are gone from them. So the texts of the line say what
stood there before the backslashes were put in.
-/

namespace PageMarkup

namespace Source

/-- The clusters that can be marks, and the backslash that takes their meaning away. -/
def markers : List String := ["!", "#", "*", "=", ">", "[", "]", "\x7b", "\x7d", "\\"]

/-- A cluster with a backslash before it if it could be a mark. -/
def escapeCluster (cluster : String) : List String :=
  if cluster ∈ markers then ["\\", cluster] else [cluster]

/-- A line with a backslash before each of its markers. -/
def escapeLine (line : List String) : List String := line.flatMap escapeCluster

theorem escapeLine_cons (cluster : String) (rest : List String) :
    escapeLine (cluster :: rest) = escapeCluster cluster ++ escapeLine rest := List.flatMap_cons

/-- Clusters of a single line, without carriage returns. -/
def Plain (line : List String) : Prop :=
  ∀ cluster ∈ line, '\r' ∉ cluster.toList ∧ '\n' ∉ cluster.toList

end Source

namespace Glyph

theorem ofCluster_of_marker {cluster : String} (hmarker : cluster ∈ Source.markers) :
    (ofCluster cluster).isEscapable = true ∧ ofCluster cluster ≠ .carriageReturn := by
  have hall : ∀ marker ∈ Source.markers,
      (ofCluster marker).isEscapable = true ∧ ofCluster marker ≠ .carriageReturn := by decide
  exact hall cluster hmarker

theorem mem_markers_of_ofMarker? {cluster : String} {glyph : Glyph}
    (hmarker : ofMarker? cluster.toList = some glyph) : cluster ∈ Source.markers := by
  have hmem : ∀ c, cluster.toList = [c] → String.singleton c ∈ Source.markers →
      cluster ∈ Source.markers := by
    intro c hc hmem
    rwa [String.toList_inj.mp (hc.trans (String.toList_singleton c).symm)]
  unfold ofMarker? at hmarker
  split at hmarker <;> cases hmarker <;> exact hmem _ (by assumption) (by decide)

/-- Any other cluster of a line is read as text. -/
theorem ofCluster_of_text {cluster : String} (hmarker : cluster ∉ Source.markers)
    (hreturn : '\r' ∉ cluster.toList) (hnewline : '\n' ∉ cluster.toList) :
    ofCluster cluster = .blank ∨ ofCluster cluster = .other := by
  have hsees := sees_ofCluster cluster
  generalize ofCluster cluster = glyph at hsees
  cases hsees with
  | newline hline => exact absurd (List.contains_iff_mem.mp hline) hnewline
  | carriageReturn hlone => simp [hlone] at hreturn
  | marker hfound => exact absurd (mem_markers_of_ofMarker? hfound) hmarker
  | blank => exact .inl rfl
  | other => exact .inr rfl

end Glyph

namespace Source

variable {source : Source}

theorem slice_single {index : Nat} {cluster : String}
    (hcluster : source.cluster? index = some cluster) :
    source.slice ⟨index, index + 1⟩ = cluster := by
  simp [slice, Span.length, hcluster]

theorem slice_succ {start stop : Nat} (hle : start ≤ stop) {cluster : String}
    (hcluster : source.cluster? stop = some cluster) :
    source.slice ⟨start, stop + 1⟩ = source.slice ⟨start, stop⟩ ++ cluster := by
  obtain ⟨count, rfl⟩ := Nat.exists_eq_add_of_le hle
  have hlength : start + count + 1 - start = count + 1 := by omega
  simp [slice, Span.length, hlength, List.range'_concat, hcluster, String.join_append]

end Source

namespace Token

/-- Tokens, latest first, that are texts and say `text` one after the other. -/
structure Says (source : Source) (done : List Token) (text : String) : Prop where
  kinds : ∀ token ∈ done, token.kind = .text
  forward : ∀ token ∈ done, token.span.start ≤ token.span.stop
  texts : String.join (done.reverse.map fun token => source.slice token.span) = text

variable {source : Source} {done : List Token} {text : String}

theorem Says.nil : Says source [] "" := ⟨nofun, nofun, rfl⟩

/-- One more cluster goes on the texts, whether or not it goes on the latest one. -/
theorem Says.push (hsaid : Says source done text) {index : Nat} {cluster : String}
    (hcluster : source.cluster? index = some cluster) :
    Says source (push .text ⟨index, index + 1⟩ done) (text ++ cluster) := by
  obtain ⟨hkinds, hforward, rfl⟩ := hsaid
  cases done with
  | nil =>
      refine ⟨by simp [Token.push], by simp [Token.push], ?_⟩
      simp [Token.push, Source.slice_single hcluster]
  | cons token before =>
      obtain ⟨hkind, hkinds⟩ := List.forall_mem_cons.mp hkinds
      obtain ⟨hle, hforward⟩ := List.forall_mem_cons.mp hforward
      by_cases hstop : token.span.stop = index
      · subst hstop
        have hpush : Token.push .text ⟨token.span.stop, token.span.stop + 1⟩ (token :: before) =
            ⟨.text, ⟨token.span.start, token.span.stop + 1⟩⟩ :: before := by
          simp [Token.push, hkind]
        rw [hpush]
        refine ⟨List.forall_mem_cons.mpr ⟨rfl, hkinds⟩,
          List.forall_mem_cons.mpr ⟨Nat.le_succ_of_le hle, hforward⟩, ?_⟩
        simp [Source.slice_succ hle hcluster, String.join_append, String.append_assoc]
      · have hpush : Token.push .text ⟨index, index + 1⟩ (token :: before) =
            ⟨.text, ⟨index, index + 1⟩⟩ :: token :: before := by
          simp [Token.push, hstop]
        rw [hpush]
        refine ⟨by simpa [hkind] using hkinds, by simpa [hle] using hforward, ?_⟩
        simp [Source.slice_single hcluster, String.join_append, String.append_assoc]

theorem Says.escapes_eq_false (hsaid : Says source done text) (index : Nat) :
    escapes done index = false := by
  cases done with
  | nil => rfl
  | cons token before => simp [escapes, hsaid.kinds token List.mem_cons_self]

theorem step_of_text (hsaid : Says source done text) (index : Nat) {glyph : Glyph}
    (hglyph : glyph = .blank ∨ glyph = .other) (rest : List Glyph) :
    step done index glyph rest = (push .text ⟨index, index + 1⟩ done, 1) := by
  rcases hglyph with rfl | rfl <;> simp [step, markAt, hsaid.escapes_eq_false]

/-- A backslash and what it takes the meaning of leave a text for the latter. -/
theorem scan_escaped {index : Nat} (hescapes : escapes done index = false) {glyph : Glyph}
    (hescapable : glyph.isEscapable = true) (hreturn : glyph ≠ .carriageReturn)
    (rest : List Glyph) :
    scan done index 0 (.backslash :: glyph :: rest) =
      scan (push .text ⟨index + 1, index + 1 + 1⟩ done) (index + 1 + 1) 0 rest := by
  have hkind : Kind.backslash ≠ .text := nofun
  have hbackslash : step done index .backslash (glyph :: rest) =
      (⟨.backslash, ⟨index, index + 1⟩⟩ :: done, 1) := by
    simp [step, markAt, hescapes, push_of_ne_text hkind]
  have hglyph : step (⟨.backslash, ⟨index, index + 1⟩⟩ :: done) (index + 1) glyph rest =
      (push .text ⟨index + 1, index + 1 + 1⟩ done, 1) := by
    simp [step, hreturn, escapes, hescapable]
  simp [scan, hbackslash, hglyph]

/-- The tokens of an escaped line are texts that say the line. -/
theorem Says.scan {line : List String} (hline : Source.Plain line) {before : List String}
    (hsource : source = .ofClusters (before ++ Source.escapeLine line))
    (hsaid : Says source done text) :
    Says source (scan done before.length 0 ((Source.escapeLine line).map Glyph.ofCluster))
      (text ++ String.join line) := by
  induction line generalizing before done text with
  | nil => simpa [Source.escapeLine, Token.scan] using hsaid
  | cons cluster rest ih =>
      obtain ⟨⟨hreturn, hnewline⟩, hrest⟩ := List.forall_mem_cons.mp hline
      have hnext : source = .ofClusters
          ((before ++ Source.escapeCluster cluster) ++ Source.escapeLine rest) := by
        rw [hsource, Source.escapeLine_cons, List.append_assoc]
      rw [String.join_cons, ← String.append_assoc, Source.escapeLine_cons]
      by_cases hmarker : cluster ∈ Source.markers
      · have hcluster : source.cluster? (before.length + 1) = some cluster := by
          simp [hnext, Source.cluster?_ofClusters, Source.escapeCluster, hmarker]
        obtain ⟨hescapable, hlone⟩ := Glyph.ofCluster_of_marker hmarker
        have hmore := ih hrest hnext (hsaid.push hcluster)
        have hbackslash : Glyph.ofCluster "\\" = .backslash := by decide
        rw [Source.escapeCluster, if_pos hmarker] at hmore ⊢
        simp only [List.cons_append, List.nil_append, List.map_cons, hbackslash]
        rw [scan_escaped (hsaid.escapes_eq_false _) hescapable hlone]
        simpa using hmore
      · have hcluster : source.cluster? before.length = some cluster := by
          simp [hnext, Source.cluster?_ofClusters, Source.escapeCluster, hmarker]
        have hglyph := Glyph.ofCluster_of_text hmarker hreturn hnewline
        have hmore := ih hrest hnext (hsaid.push hcluster)
        rw [Source.escapeCluster, if_neg hmarker] at hmore ⊢
        simp only [List.cons_append, List.nil_append, List.map_cons, Token.scan]
        rw [step_of_text hsaid _ hglyph]
        simpa using hmore

end Token

namespace Lexeme

/-- Lexemes that are one text, or nothing at all if there is no text. -/
def Spell (text : String) (lexemes : List Lexeme) : Prop :=
  (lexemes = [] ∧ text = "") ∨ ∃ span, lexemes = [⟨.text, span, text⟩]

theorem Spell.kinds {text : String} {lexemes : List Lexeme} (hspell : Spell text lexemes) :
    ∀ lexeme ∈ lexemes, lexeme.kind = .text := by
  obtain ⟨rfl, -⟩ | ⟨span, rfl⟩ := hspell <;> simp

theorem Spell.texts {text : String} {lexemes : List Lexeme} (hspell : Spell text lexemes) :
    String.join (lexemes.map (·.text)) = text := by
  obtain ⟨rfl, rfl⟩ | ⟨span, rfl⟩ := hspell <;> simp [String.join_cons]

/-- Neighbouring texts become one. -/
theorem spell_coalesce {lexemes : List Lexeme} (hkinds : ∀ lexeme ∈ lexemes, lexeme.kind = .text) :
    Spell (String.join (lexemes.map (·.text))) (coalesce lexemes) := by
  induction lexemes with
  | nil => exact .inl ⟨rfl, rfl⟩
  | cons lexeme rest ih =>
      obtain ⟨hkind, hrest⟩ := List.forall_mem_cons.mp hkinds
      obtain ⟨kind, span, text⟩ := lexeme
      obtain rfl : kind = .text := hkind
      rw [coalesce, List.foldr_cons, ← coalesce, List.map_cons, String.join_cons]
      obtain ⟨hnone, htext⟩ | ⟨span', hrest⟩ := ih hrest
      · rw [hnone, htext, String.append_empty]
        exact .inr ⟨span, rfl⟩
      · rw [hrest]
        exact .inr ⟨span.cover span', rfl⟩

/-- Texts one after the other are one text. -/
theorem spell_of_says {source : Source} {done : List Token} {text : String}
    (hsaid : Token.Says source done text) :
    Spell text (coalesce (done.reverse.map (ofToken source))) := by
  have hkinds : ∀ lexeme ∈ done.reverse.map (ofToken source), lexeme.kind = .text := by
    intro lexeme hmem
    obtain ⟨token, htoken, rfl⟩ := List.mem_map.mp hmem
    simp [ofToken, hsaid.kinds token (List.mem_reverse.mp htoken)]
  have hspell := spell_coalesce hkinds
  rw [List.map_map] at hspell
  exact hsaid.texts ▸ hspell

/-- Lexemes of lines that have no marks: the text of each line and a newline after it. -/
inductive Lines : List String → List Lexeme → Prop where
  | nil : Lines [] []
  | cons {text : String} {texts : List String} {line rest : List Lexeme} {closer : Lexeme} :
      Spell text line → closer.kind = .newline → Lines texts rest →
      Lines (text :: texts) (line ++ closer :: rest)

theorem Spell.shift {text : String} {lexemes : List Lexeme} (hspell : Spell text lexemes)
    (distance : Nat) : Spell text (lexemes.map (shift distance)) := by
  obtain ⟨rfl, htext⟩ | ⟨span, rfl⟩ := hspell
  · exact .inl ⟨rfl, htext⟩
  · exact .inr ⟨_, rfl⟩

theorem Lines.shift {texts : List String} {lexemes : List Lexeme} (hlines : Lines texts lexemes)
    (distance : Nat) : Lines texts (lexemes.map (shift distance)) := by
  induction hlines with
  | nil => exact .nil
  | cons hspell hcloser _ ih =>
      rw [List.map_append, List.map_cons]
      exact .cons (hspell.shift distance) hcloser ih

end Lexeme

namespace Source

/-- An escaped line is one text. -/
theorem spell_openLexemes {line : List String} (hline : Plain line) :
    Lexeme.Spell (String.join line) (ofClusters (escapeLine line)).openLexemes := by
  have hwhole : ofClusters (escapeLine line) = .ofClusters ([] ++ escapeLine line) := rfl
  have hsaid := Token.Says.nil.scan hline hwhole
  rw [openLexemes, openTokens, glyphs_ofClusters]
  simpa using Lexeme.spell_of_says hsaid

/-- Escaped lines have no marks. -/
theorem lines_lexemes {line : List String} {lines : List (List String)} (hline : Plain line)
    (hlines : ∀ other ∈ lines, Plain other) :
    Lexeme.Lines ((line :: lines).map String.join)
      (ofClusters (escapeLine line ++ lines.flatMap fun other => "\n" :: escapeLine other)).lexemes := by
  induction lines generalizing line with
  | nil =>
      rw [List.flatMap_nil, List.append_nil, lexemes_eq]
      exact .cons (spell_openLexemes hline) rfl .nil
  | cons next rest ih =>
      obtain ⟨hnext, hrest⟩ := List.forall_mem_cons.mp hlines
      have hnewline : isNewline "\n" = true := by decide
      rw [List.flatMap_cons, List.cons_append, lexemes_line _ _ hnewline]
      exact .cons (spell_openLexemes hline) rfl ((ih hnext hrest).shift _)

end Source

end PageMarkup
