import PageMarkup.Proofs.Directive.Spellings
import PageMarkup.Proofs.Text.Prepended

/-! # Marks of directives

The mark of a directive is an exclamation mark and the word after it, which goes up to the
first cluster that starts with white space. The scanner looks at the first character of a
cluster only, and the name is then cut from the mark by characters. The two agree unless a
cluster of the word attaches white space to prepended characters: such white space stays in
the mark, and the name ends before it.
-/

namespace PageMarkup

/-! ## Scanning -/

namespace Token

/-- The mark of a directive takes its exclamation mark and what stands before the next white
space. -/
def TakesWord (glyphs : List Glyph) (token : Token) : Prop :=
  token.kind = .lineMark .directive → ∃ line, glyphs.drop token.span.start = .bang :: line ∧
    token.span.stop = token.span.start + ((line.takeWhile (!·.isBlank)).length + 1)

theorem markAt_directive {lineStart : Bool} {glyph : Glyph} {rest : List Glyph}
    (hkind : (markAt lineStart glyph rest).1 = .lineMark .directive) :
    glyph = .bang ∧
      (markAt lineStart glyph rest).2 = (rest.takeWhile (!·.isBlank)).length + 1 := by
  have hstarts : (markAt lineStart glyph rest).1 = Aggregate.startedBy (.line .directive) := hkind
  have hmarker := (markAt_opening hstarts).1
  obtain rfl : Glyph.bang = glyph := (List.cons_prefix_cons.mp hmarker).1
  cases lineStart with
  | false => cases hkind
  | true => exact ⟨rfl, rfl⟩

theorem takesWord_step {glyphs before rest : List Glyph} {done : List Token} {glyph : Glyph}
    (hglyphs : glyphs = before ++ glyph :: rest)
    (hdone : ∀ token ∈ done, token.TakesWord glyphs) :
    ∀ token ∈ (step done before.length glyph rest).1, token.TakesWord glyphs := by
  have htext : ∀ span, TakesWord glyphs ⟨.text, span⟩ := fun span => nofun
  unfold step
  split_ifs
  · exact hdone
  · exact forall_mem_push (htext _) (fun _ _ => htext _) fun token hmem =>
      hdone token (List.mem_of_mem_tail hmem)
  · refine forall_mem_push (fun hkind => ?_) (fun _ _ => htext _) hdone
    obtain ⟨rfl, hwidth⟩ := markAt_directive hkind
    refine ⟨rest, by simp [hglyphs], ?_⟩
    exact congrArg (before.length + ·) hwidth

theorem takesWord_scan (glyphs : List Glyph) :
    ∀ token ∈ scan [] 0 0 glyphs, token.TakesWord glyphs := by
  have hglyphs : glyphs = [] ++ glyphs := rfl
  exact scan_induction (motive := fun _ done => ∀ token ∈ done, token.TakesWord glyphs)
    takesWord_step hglyphs (Nat.zero_le _) nofun

end Token

/-- A cluster of a text ends the mark of a directive just if it starts with white space. -/
theorem Glyph.isBlank_ofCluster {cluster : String} (hchain : cluster.toList.IsChain Text.Joins) :
    (ofCluster cluster).isBlank = cluster.toList.head?.any Text.isBlank := by
  unfold ofCluster
  split
  next hnewline =>
    obtain ⟨c, hhead, hblank⟩ :=
      Text.isBlank_head_of_lineFeed hchain (List.contains_iff_mem.mp hnewline)
    exact ((Option.any_eq_true _ _).mpr ⟨c, hhead, hblank⟩).symm
  next =>
    split
    next hreturn =>
      rw [hreturn]
      decide
    next =>
      split
      next glyph hmarker =>
        -- a character that can be a mark is no white space
        have hsolid : ∀ marker ∈ Source.markers,
            marker.toList.head?.any Text.isBlank = false := by decide
        have hescapable := isEscapable_of_ofMarker? hmarker
        rw [hsolid cluster (mem_markers_of_ofMarker? hmarker)]
        cases glyph
        case newline | carriageReturn | blank => cases hescapable
        all_goals rfl
      next =>
        split
        next hblank => exact hblank.symm
        next hblank => exact (Bool.eq_false_of_not_eq_true hblank).symm

/-! ## The word after the exclamation mark -/

namespace Directive

/-- The clusters of a line before the first one that starts with white space. -/
def word (line : List String) : List String :=
  line.takeWhile fun cluster => !cluster.toList.head?.any Text.isBlank

/-- White space is attached to prepended characters before any equals sign of the word. -/
def AttachesBlankFirst (word : List String) : Prop :=
  ∃ front cluster back, word = front ++ cluster :: back ∧ '=' ∉ (String.join front).toList ∧
    Text.AttachesBlank cluster.toList

theorem markLength_eq {line : List String}
    (hline : ∀ cluster ∈ line, cluster.toList.IsChain Text.Joins) :
    Source.markLength line = (word line).length := by
  induction line with
  | nil => rfl
  | cons cluster rest ih =>
      obtain ⟨hcluster, hrest⟩ := List.forall_mem_cons.mp hline
      have ih := ih hrest
      unfold Source.markLength word at ih ⊢
      rw [List.map_cons, List.takeWhile_cons, List.takeWhile_cons,
        Glyph.isBlank_ofCluster hcluster]
      split
      · exact congrArg (· + 1) ih
      · rfl

theorem head_of_mem_word {line : List String} {cluster : String} (hmem : cluster ∈ word line) :
    ∀ c ∈ cluster.toList.head?, Text.isBlank c = false := by
  have hhead := List.mem_takeWhile_imp hmem
  intro c hc
  rw [Option.mem_def] at hc
  simpa [hc] using hhead

theorem isNameChar_of_isBlank {c : Char} (hc : Text.isBlank c = true) : isNameChar c = false := by
  simp [isNameChar, hc]

theorem ne_equals_of_isBlank {c : Char} (hc : Text.isBlank c = true) : c ≠ '=' := by
  rintro rfl
  exact absurd hc (by decide)

theorem ne_equals_of_isPrepended {c : Char} (hc : Text.IsPrepended c) : c ≠ '=' := by
  rintro rfl
  exact absurd hc (by unfold Text.IsPrepended; decide)

/-- A character of joined clusters stands in one of them, behind those before it. -/
theorem exists_cluster_of_join {clusters : List String} {front back : List Char} {c : Char}
    (hjoin : (String.join clusters).toList = front ++ c :: back) :
    ∃ before cluster after, clusters = before ++ cluster :: after ∧ c ∈ cluster.toList ∧
      (String.join before).toList <+: front := by
  induction clusters generalizing front with
  | nil => simp at hjoin
  | cons cluster rest ih =>
      rw [String.join_cons, String.toList_append] at hjoin
      rcases List.append_eq_append_iff.mp hjoin with ⟨gap, rfl, hrest⟩ | ⟨gap, hcluster, hback⟩
      · obtain ⟨before, found, after, rfl, hmem, hbefore⟩ := ih hrest
        refine ⟨cluster :: before, found, after, rfl, hmem, ?_⟩
        rw [String.join_cons, String.toList_append]
        exact (List.prefix_append_right_inj _).mpr hbefore
      · cases gap with
        | nil =>
            -- the cluster ends right before the character
            have hrest : (String.join rest).toList = [] ++ c :: back := hback.symm
            obtain ⟨before, found, after, rfl, hmem, hbefore⟩ := ih hrest
            have hfront : (String.join (cluster :: before)).toList = front := by
              rw [String.join_cons, String.toList_append, List.prefix_nil.mp hbefore, hcluster,
                List.append_nil, List.append_nil]
            exact ⟨cluster :: before, found, after, rfl, hmem, hfront ▸ List.prefix_rfl⟩
        | cons other gap =>
            obtain ⟨rfl, -⟩ := List.cons.inj hback
            exact ⟨[], cluster, rest, rfl, by simp [hcluster], List.nil_prefix⟩

section Joined

variable {clusters : List String} {name rest : String}
  (hclusters : ∀ cluster ∈ clusters, cluster.toList.IsChain Text.Joins)
  (hheads : ∀ cluster ∈ clusters, ∀ c ∈ cluster.toList.head?, Text.isBlank c = false)

include hclusters hheads

/-- Clusters that do not start with white space have it just if one of them attaches some. -/
theorem exists_isBlank_join_iff :
    (∃ c ∈ (String.join clusters).toList, Text.isBlank c = true) ↔
      ∃ cluster ∈ clusters, Text.AttachesBlank cluster.toList := by
  rw [String.toList_join]
  constructor
  · rintro ⟨c, hmem, hblank⟩
    obtain ⟨cluster, hcluster, hmem⟩ := List.mem_flatMap.mp hmem
    exact ⟨cluster, hcluster, (Text.exists_isBlank_iff (hclusters cluster hcluster)
      (hheads cluster hcluster)).mp ⟨c, hmem, hblank⟩⟩
  · rintro ⟨cluster, hcluster, hattaches⟩
    obtain ⟨c, hmem, hblank⟩ := (Text.exists_isBlank_iff (hclusters cluster hcluster)
      (hheads cluster hcluster)).mpr hattaches
    exact ⟨c, List.mem_flatMap.mpr ⟨cluster, hcluster, hmem⟩, hblank⟩

/-- White space follows a name only if it is attached. -/
theorem attachesBlankFirst_of_head (hjoin : String.join clusters = name ++ rest)
    (hname : ∀ c ∈ name.toList, isNameChar c = true) {c : Char} (hc : c ∈ rest.toList.head?)
    (hblank : Text.isBlank c = true) : AttachesBlankFirst clusters := by
  obtain ⟨tail, hrest⟩ := List.head?_eq_some_iff.mp hc
  have hsplit : (String.join clusters).toList = name.toList ++ c :: tail := by
    rw [hjoin, String.toList_append, hrest]
  obtain ⟨before, cluster, after, rfl, hmem, hbefore⟩ := exists_cluster_of_join hsplit
  have hcluster : cluster ∈ before ++ cluster :: after :=
    List.mem_append_right _ List.mem_cons_self
  refine ⟨before, cluster, after, rfl, fun hequals => ?_, ?_⟩
  · have hword := hname '=' (hbefore.subset hequals)
    cases hword
  · exact (Text.exists_isBlank_iff (hclusters cluster hcluster) (hheads cluster hcluster)).mp
      ⟨c, hmem, hblank⟩

end Joined

/-- Attached white space ends a name, if no equals sign does so before it. -/
theorem head_of_attachesBlankFirst {clusters : List String} {name rest : String}
    (hjoin : String.join clusters = name ++ rest)
    (hname : ∀ c ∈ name.toList, isNameChar c = true) (hattaches : AttachesBlankFirst clusters) :
    ∃ c ∈ rest.toList.head?, c ≠ '=' := by
  obtain ⟨front, cluster, back, rfl, hfront, before, blank, marks, hcluster, -, hbefore, hblank⟩ :=
    hattaches
  have hsplit : (String.join front).toList ++ before ++
      blank :: (marks ++ (String.join back).toList) = name.toList ++ rest.toList := by
    rw [← String.toList_append, ← hjoin]
    simp [String.join_append, String.join_cons, hcluster]
  have hsolid : ∀ c ∈ (String.join front).toList ++ before, c ≠ '=' := by
    refine List.forall_mem_append.mpr ⟨?_, fun c hc => ne_equals_of_isPrepended (hbefore c hc)⟩
    rintro c hc rfl
    exact hfront hc
  -- what follows the name begins with the white space or before it
  rcases List.append_eq_append_iff.mp hsplit with ⟨gap, htaken, hrest⟩ | ⟨gap, htaken, hrest⟩
  · cases gap with
    | nil =>
        have hhead : rest.toList.head? = some blank := congrArg List.head? hrest.symm
        exact ⟨blank, hhead, ne_equals_of_isBlank hblank⟩
    | cons other gap =>
        -- the name would go on over the white space
        obtain ⟨rfl, -⟩ := List.cons.inj hrest
        have hword := hname blank (by simp [htaken])
        rw [isNameChar_of_isBlank hblank] at hword
        cases hword
  · cases gap with
    | nil =>
        have hhead : rest.toList.head? = some blank := congrArg List.head? hrest
        exact ⟨blank, hhead, ne_equals_of_isBlank hblank⟩
    | cons other gap =>
        have hhead : rest.toList.head? = some other := congrArg List.head? hrest
        have hmem : other ∈ (String.join front).toList ++ before :=
          htaken ▸ List.mem_append_right _ List.mem_cons_self
        exact ⟨other, hhead, hsolid other hmem⟩

/-- What stands before the first equals sign or white space, and what stands from there on. -/
theorem exists_name (body : String) :
    ∃ name rest, body = name ++ rest ∧ (∀ c ∈ name.toList, isNameChar c = true) ∧
      ∀ c ∈ rest.toList.head?, isNameChar c = false := by
  refine ⟨String.ofList (body.toList.takeWhile isNameChar),
    String.ofList (body.toList.dropWhile isNameChar), ?_, ?_, ?_⟩
  · rw [← String.ofList_append, List.takeWhile_append_dropWhile, String.ofList_toList]
  · rw [String.toList_ofList]
    exact fun c hc => List.mem_takeWhile_imp hc
  · intro c hc
    have hstop := List.head?_dropWhile_not isNameChar body.toList
    rw [String.toList_ofList, Option.mem_def] at hc
    simpa [hc] using hstop

theorem Called.eq_append {written name subname : String} (hcalled : Called written name subname) :
    written = name ++ subname := by
  cases hcalled with
  | note => rfl
  | other => exact String.append_empty.symm

/-- What the mark of a directive covers, and how it is read. -/
structure MarkReads (source : Source) (mark : Span) (word : List String)
    (opening : DirectiveOpening) : Prop where
  /-- The mark covers an exclamation mark and the word after it. -/
  covers : ∃ line, source.clusters.toList.drop mark.start = "!" :: line ∧
    word = Directive.word line ∧ mark.stop = mark.start + (word.length + 1)
  text : source.slice mark = "!" ++ String.join word
  opens : parseOpening? (source.slice mark) = some opening
  /-- Nothing of the mark is lost, and nothing is read twice. -/
  parts : source.slice mark = "!" ++ (opening.name ++ (opening.subname ++ opening.rest))
  called : Called (opening.name ++ opening.subname) opening.name opening.subname
  name : ∀ c ∈ (opening.name ++ opening.subname).toList, isNameChar c = true
  /-- The name goes up to an equals sign or white space. -/
  stops : ∀ c ∈ opening.rest.toList.head?, isNameChar c = false
  /-- White space is in the mark just if a cluster of the word attaches some. -/
  blank : (∃ c ∈ (source.slice mark).toList, Text.isBlank c = true) ↔
    ∃ cluster ∈ word, Text.AttachesBlank cluster.toList
  /-- What follows the name starts with an equals sign, if there is any, unless white space is
  attached before. -/
  rest : (∀ c ∈ opening.rest.toList.head?, c = '=') ↔ ¬ AttachesBlankFirst word

end Directive

/-! ## Texts -/

namespace Source

theorem isChain_of_mem_ofText {text cluster : String}
    (hmem : cluster ∈ (ofText text).clusters.toList) : cluster.toList.IsChain Text.Joins := by
  obtain ⟨characters, hcharacters, rfl⟩ := List.mem_map.mp hmem
  rw [String.toList_ofList]
  exact Text.isChain_of_mem_clusterLists hcharacters

/-- The mark of a directive stands on an exclamation mark and goes on up to white space. -/
theorem exists_line_of_directive {source : Source} {token : Token} (hmem : token ∈ source.tokens)
    (hkind : token.kind = .lineMark .directive) :
    ∃ line, source.clusters.toList.drop token.span.start = "!" :: line ∧
      token.span.stop = token.span.start + (markLength line + 1) := by
  rcases List.mem_cons.mp (List.mem_reverse.mp hmem) with rfl | hmem
  · cases hkind
  · obtain ⟨glyphs, hdrop, hstop⟩ := Token.takesWord_scan source.glyphs token hmem hkind
    rw [Source.glyphs, ← List.map_drop, List.map_eq_cons_iff] at hdrop
    obtain ⟨bang, line, hclusters, hbang, rfl⟩ := hdrop
    obtain rfl : bang = "!" := Glyph.ofCluster_inj (by decide) (hbang.trans (by decide))
    exact ⟨line, hclusters, hstop⟩

theorem slice_mark {source : Source} {start : Nat} {line : List String}
    (hline : source.clusters.toList.drop start = "!" :: line) :
    source.slice ⟨start, start + ((Directive.word line).length + 1)⟩ =
      "!" ++ String.join (Directive.word line) := by
  have hprefix : Directive.word line <+: line := List.takeWhile_prefix _
  have hlength := congrArg List.length hline
  rw [List.length_drop, List.length_cons] at hlength
  have hword := hprefix.length_le
  have hcount : start + ((Directive.word line).length + 1) ≤ source.clusters.toList.length := by
    omega
  have hslice : source.slice ⟨start, start + ((Directive.word line).length + 1)⟩ = _ :=
    slice_drop_take hcount
  rw [hslice, hline, List.take_succ_cons, ← List.prefix_iff_eq_take.mp hprefix, String.join_cons]

/-- The mark of every directive of a text is an exclamation mark and the word after it, and it is
read as a name and what follows the name. A mark has no white space, and what follows its name
starts with an equals sign, unless a cluster attaches white space to prepended characters. -/
theorem directive_marks_read (text : String) {token : Token}
    (hmem : token ∈ (ofText text).tokens) (hkind : token.kind = .lineMark .directive) :
    ∃ word opening, Directive.MarkReads (ofText text) token.span word opening := by
  obtain ⟨line, hline, hstop⟩ := exists_line_of_directive hmem hkind
  have hchains : ∀ cluster ∈ line, cluster.toList.IsChain Text.Joins := by
    intro cluster hcluster
    have hdrop : cluster ∈ (ofText text).clusters.toList.drop token.span.start :=
      hline ▸ List.mem_cons_of_mem _ hcluster
    exact isChain_of_mem_ofText (List.mem_of_mem_drop hdrop)
  have hword : ∀ cluster ∈ Directive.word line, cluster.toList.IsChain Text.Joins :=
    fun cluster hcluster => hchains cluster ((List.takeWhile_sublist _).subset hcluster)
  have hheads : ∀ cluster ∈ Directive.word line, ∀ c ∈ cluster.toList.head?,
      Text.isBlank c = false := fun cluster hcluster => Directive.head_of_mem_word hcluster
  -- what ends the mark is white space for the scanner and for the reader of the clusters alike
  rw [Directive.markLength_eq hchains] at hstop
  have htext : (ofText text).slice token.span = "!" ++ String.join (Directive.word line) := by
    rw [← slice_mark hline, ← hstop]
  obtain ⟨name, rest, hjoin, hname, hrest⟩ :=
    Directive.exists_name (String.join (Directive.word line))
  obtain ⟨called, subname, hcalled, hparse⟩ := Directive.exists_parseOpening? hname
  obtain rfl := hcalled.eq_append
  refine ⟨Directive.word line, ⟨called, subname, rest⟩, ⟨line, hline, rfl, hstop⟩, htext, ?_, ?_,
    hcalled, hname, hrest, ?_, ?_⟩
  · rw [htext, hjoin, hparse rest hrest]
  · rw [htext, hjoin, String.append_assoc]
  · have hsolid : Text.isBlank '!' = false := by decide
    rw [htext, ← Directive.exists_isBlank_join_iff hword hheads, String.toList_append]
    simp [hsolid, -String.toList_join]
  · constructor
    · intro hequals hattaches
      obtain ⟨c, hc, hne⟩ := Directive.head_of_attachesBlankFirst hjoin hname hattaches
      exact hne (hequals c hc)
    · intro hnone c hc
      by_contra hne
      have hblank : Text.isBlank c = true := by simpa [Directive.isNameChar, hne] using hrest c hc
      exact hnone (Directive.attachesBlankFirst_of_head hword hheads hjoin hname hc hblank)

/-- The name of a note that ends before the space attached to it. -/
theorem directive_marks_read_note :
    ⟨.lineMark .directive, ⟨2, 11⟩⟩ ∈ (ofText "a\n!note\u0d4e x=1 b").tokens ∧
      ∃ word, Directive.MarkReads (ofText "a\n!note\u0d4e x=1 b") ⟨2, 11⟩ word
        ⟨"note", "\u0d4e", " x=1"⟩ := by
  have hmem : ⟨.lineMark .directive, ⟨2, 11⟩⟩ ∈ (ofText "a\n!note\u0d4e x=1 b").tokens := by
    decide +kernel
  obtain ⟨word, opening, hreads⟩ := directive_marks_read "a\n!note\u0d4e x=1 b" hmem rfl
  have hopens : Directive.parseOpening? ((ofText "a\n!note\u0d4e x=1 b").slice ⟨2, 11⟩) =
      some ⟨"note", "\u0d4e", " x=1"⟩ := by
    decide +kernel
  obtain rfl := Option.some.inj (hreads.opens.symm.trans hopens)
  exact ⟨hmem, word, hreads⟩

/-- The letter U+0D4E is prepended: the space after it stays in the mark, and the name ends
before the space. -/
theorem directive_mark_with_blank :
    (ofText "!\u0d4e x").tokens = [⟨.lineMark .directive, ⟨0, 3⟩⟩, ⟨.newline, ⟨3, 4⟩⟩] ∧
      (ofText "!\u0d4e x").slice ⟨0, 3⟩ = "!\u0d4e x" ∧
      Directive.parseOpening? "!\u0d4e x" = some ⟨"\u0d4e", "", " x"⟩ ∧
      (¬ ∀ text, ∀ token ∈ (ofText text).tokens, token.kind = .lineMark .directive →
        ∀ c ∈ ((ofText text).slice token.span).toList, Text.isBlank c = false) ∧
      ¬ ∀ text, ∀ token ∈ (ofText text).tokens, token.kind = .lineMark .directive →
        ∀ opening ∈ Directive.parseOpening? ((ofText text).slice token.span),
          ∀ c ∈ opening.rest.toList.head?, c = '=' := by
  have htokens : (ofText "!\u0d4e x").tokens =
      [⟨.lineMark .directive, ⟨0, 3⟩⟩, ⟨.newline, ⟨3, 4⟩⟩] := by
    decide +kernel
  have hslice : (ofText "!\u0d4e x").slice ⟨0, 3⟩ = "!\u0d4e x" := by decide +kernel
  have hopens : Directive.parseOpening? "!\u0d4e x" = some ⟨"\u0d4e", "", " x"⟩ := by
    decide +kernel
  have hmem : ⟨.lineMark .directive, ⟨0, 3⟩⟩ ∈ (ofText "!\u0d4e x").tokens :=
    htokens ▸ List.mem_cons_self
  refine ⟨htokens, hslice, hopens, fun hall => ?_, fun hall => ?_⟩
  · have hspace := hall _ _ hmem rfl ' ' (by rw [hslice]; decide)
    cases hspace
  · have hequals := hall _ _ hmem rfl _ (by rw [hslice]; exact hopens) ' ' (by decide)
    cases hequals

end Source

end PageMarkup
