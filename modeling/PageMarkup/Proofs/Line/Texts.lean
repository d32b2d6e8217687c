import PageMarkup.Proofs.Line.Clusters
import PageMarkup.Proofs.Line.Kinds

/-! # Texts line by line

A text is cut into clusters without loss, and after a line feed it is cut as if nothing
stood before. So the source of a text is put together of those of its lines.
-/

namespace PageMarkup

namespace Text

/-- Cutting into clusters loses nothing. -/
theorem join_clusters (text : String) : String.join (clusters text) = text := by
  have hjoin : ∀ lists : List (List Char),
      String.join (lists.map String.ofList) = String.ofList lists.flatten := by
    intro lists
    induction lists with
    | nil => rfl
    | cons list rest ih => simp [String.join_cons, ih]
  rw [clusters, hjoin, clusterLists_flatten, String.ofList_toList]

@[simp] theorem clusters_empty : clusters "" = [] := rfl

end Text

namespace Source

theorem ofText_eq (text : String) : ofText text = ofClusters (Text.clusters text) := rfl

/-- The clusters of a text without a line feed stand in one line. -/
theorem unbroken_clusters {text : String} (htext : '\n' ∉ text.toList) :
    Unbroken (Text.clusters text) := by
  intro cluster hmem
  rw [← Bool.not_eq_true, isNewline, List.contains_iff_mem]
  intro hnewline
  apply htext
  rw [← Text.join_clusters text, String.toList_join]
  exact List.mem_flatMap.mpr ⟨cluster, hmem, hnewline⟩

/-- Any text after a position that begins a line is cut as if it stood alone. -/
theorem endsLine_clusters {before : String}
    (hbefore : before = "" ∨ ∃ start, before = start ++ "\n") :
    EndsLine (Text.clusters before) ∧
      ∀ after, Text.clusters (before ++ after) = Text.clusters before ++ Text.clusters after := by
  obtain rfl | ⟨start, rfl⟩ := hbefore
  · exact ⟨.inl rfl, fun after => by simp⟩
  · obtain ⟨line, ending, hending, hclusters, -⟩ := clusters_line start
    have hempty : Text.clusters (start ++ "\n") = line ++ [ending] := by
      simpa using hclusters ""
    refine ⟨.inr ⟨line, ending, hending, hempty⟩, fun after => ?_⟩
    rw [hclusters, hempty, List.append_assoc, List.singleton_append]

/-- A text that starts with an exclamation mark is cut like the line that it makes. -/
theorem directiveLine_of_text {line : String} (hhead : (Text.clusters line).head? = some "!")
    (hline : '\n' ∉ line.toList) {opening : DirectiveOpening}
    (hopening : Directive.parseOpening? line = some opening) :
    ∃ clusters ending mark others directive, isNewline ending = true ∧
      (∀ after, Text.clusters (line ++ "\n" ++ after) =
        clusters ++ ending :: Text.clusters after) ∧
      DirectiveLine clusters mark others directive ∧ (ofText line).directives = [directive] ∧
      directive.name = opening.name ∧ directive.subname = opening.subname := by
  obtain ⟨clusters, ending, hending, hclusters, hwhole | hreturn⟩ := clusters_line line
  · have hjoin : String.join clusters = line := by rw [← hwhole, Text.join_clusters]
    obtain ⟨mark, others, directive, hdirective, hname, hsubname⟩ :=
      directiveLine_of_bang (hwhole ▸ hhead) (hwhole ▸ unbroken_clusters hline)
        (hjoin.symm ▸ hopening)
    refine ⟨clusters, ending, mark, others, directive, hending, hclusters, hdirective, ?_, hname,
      hsubname⟩
    rw [ofText_eq, hwhole, hdirective.directives]
  · -- a carriage return at the end of the line is no part of its argument
    have hjoin : String.join clusters ++ "\r" = line := by
      rw [← Text.join_clusters line, hreturn, String.join_append]
      rfl
    cases clusters with
    | nil => simp [hreturn] at hhead
    | cons first rest =>
        have hbang : (first :: rest).head? = some "!" := by simpa [hreturn] using hhead
        have hnonempty : (String.join (first :: rest)).toList ≠ [] := by
          obtain rfl : first = "!" := by simpa using hbang
          simp [String.join_cons]
        have hblank : ∀ c ∈ "\r".toList.head?, Text.isBlank c = true := by
          rintro c ⟨⟩
          rfl
        obtain ⟨found, hfound, hfoundName, hfoundSubname, -⟩ :=
          Directive.parseOpening?_append hnonempty hblank (hjoin.symm ▸ hopening)
        have hunbroken : Unbroken (first :: rest) := by
          intro cluster hmem
          refine unbroken_clusters hline cluster ?_
          rw [hreturn]
          exact List.mem_append_left _ hmem
        obtain ⟨mark, others, directive, hdirective, hname, hsubname⟩ :=
          directiveLine_of_bang hbang hunbroken hfound
        refine ⟨first :: rest, ending, mark, others, directive, hending, hclusters, hdirective, ?_,
          hname.trans hfoundName, hsubname.trans hfoundSubname⟩
        rw [ofText_eq, hreturn, directives_carriageReturn, hdirective.directives]

/-- The clusters before a line feed stand in one line. -/
theorem unbroken_of_clusterLists {before : List Char} (hbefore : '\n' ∉ before)
    {line : List (List Char)} (hline : Text.clusterLists before = line ∨
      Text.clusterLists before = line ++ [['\r']]) : Unbroken (line.map String.ofList) := by
  intro cluster hmem
  obtain ⟨chars, hchars, rfl⟩ := List.mem_map.mp hmem
  have hwhole : chars ∈ Text.clusterLists before := by
    rcases hline with hline | hline <;> simp [hline, hchars]
  rw [← Bool.not_eq_true, isNewline, List.contains_iff_mem, String.toList_ofList]
  intro hnewline
  refine hbefore ?_
  rw [← Text.clusterLists_flatten before]
  exact List.mem_flatten.mpr ⟨chars, hwhole, hnewline⟩

/-- The newlines of a text are white space. -/
theorem isBlankText_newline (text : String) : ∀ lexeme ∈ (ofText text).lexemes,
    lexeme.kind = .newline → Text.isBlankText lexeme.text = true := by
  rw [ofText_eq, Text.clusters]
  generalize text.toList = chars
  induction hlength : chars.length using Nat.strongRecOn generalizing chars with
  | ind length ih =>
      intro lexeme hmem hkind
      by_cases hnewline : '\n' ∈ chars
      · obtain ⟨before, after, rfl, hbefore⟩ := List.eq_append_cons_of_mem hnewline
        obtain ⟨line, ending, hending, hclusters, hline⟩ := Text.clusterLists_line before
        have hends : isNewline (String.ofList ending) = true := by
          cases hending <;> simp [isNewline]
        rw [hclusters, List.map_append, List.map_cons, lexemes_line _ _ hends] at hmem
        rcases List.mem_append.mp hmem with hopen | hrest
        · exact absurd hkind
            (kind_openLexemes (unbroken_of_clusterLists hbefore hline) lexeme hopen)
        · rcases List.mem_cons.mp hrest with rfl | hshifted
          · cases hending
            · exact (by decide +kernel : Text.isBlankText (String.ofList ['\n']) = true)
            · exact (by decide +kernel : Text.isBlankText (String.ofList ['\r', '\n']) = true)
          · obtain ⟨other, hother, rfl⟩ := List.mem_map.mp hshifted
            have hshorter : after.length < length := by
              rw [← hlength, List.length_append, List.length_cons]
              omega
            exact ih _ hshorter after rfl other hother hkind
      · have hunbroken : Unbroken ((Text.clusterLists chars).map String.ofList) :=
          unbroken_of_clusterLists hnewline (.inl rfl)
        rw [lexemes_eq] at hmem
        rcases List.mem_append.mp hmem with hopen | hlast
        · exact absurd hkind (kind_openLexemes hunbroken lexeme hopen)
        · obtain rfl := List.mem_singleton.mp hlast
          exact (by decide +kernel : Text.isBlankText "\n" = true)

end Source

end PageMarkup
