import PageMarkup.Proofs.Likeness.Runs
import PageMarkup.Proofs.Line.Crlf
import PageMarkup.Proofs.Line.Texts

/-! # Pages with carriage returns before their line feeds

A page means the same whether its lines end with a line feed or with a carriage return and
a line feed. Its HTML differs in the line ends that stand in texts, and nothing in a tag
ends with half a line end. A heading is told as text alone, so what a registry says may
stand right before a line end of the page.
-/

namespace PageMarkup

/-! ## Texts with line feeds only -/

namespace Text

theorem lineFeeds_append {as : List Char} (has : as.getLast? ≠ some '\r') (bs : List Char) :
    lineFeeds (as ++ bs) = lineFeeds as ++ lineFeeds bs := by
  induction as with
  | nil => rfl
  | cons c rest ih =>
      cases rest with
      | nil =>
          have hc : c ≠ '\r' := by simpa using has
          simp [lineFeeds, hc]
      | cons d rest =>
          rw [List.getLast?_cons_cons] at has
          have hhead : (d :: rest ++ bs).head? = (d :: rest).head? := rfl
          have hcons : ∀ tail, lineFeeds (c :: tail) =
              if c = '\r' ∧ tail.head? = some '\n' then lineFeeds tail else c :: lineFeeds tail :=
            fun _ => rfl
          rw [List.cons_append, hcons, hcons, hhead, ih has]
          split <;> rfl

/-- Texts that are the same with line feeds only and do not end with half a line end. -/
structure AgreeInLf (a b : String) : Prop where
  lf : lf a = lf b
  whole : a.toList.getLast? ≠ some '\r'
  whole' : b.toList.getLast? ≠ some '\r'

theorem lf_append {a : String} (ha : a.toList.getLast? ≠ some '\r') (b : String) :
    lf (a ++ b) = lf a ++ lf b := by
  rw [Text.lf, String.toList_append, lineFeeds_append ha, String.ofList_append, Text.lf, Text.lf]

theorem getLast?_append_ne {a b : String} (ha : a.toList.getLast? ≠ some '\r')
    (hb : b.toList.getLast? ≠ some '\r') : (a ++ b).toList.getLast? ≠ some '\r' := by
  rw [String.toList_append, List.getLast?_append]
  cases hlast : b.toList.getLast? with
  | none => simpa using ha
  | some c => simpa [hlast] using hb

/-- A text that ends with a text that does not end with half a line end. -/
theorem getLast?_append_closer {closer : String} (hsome : closer.toList ≠ [])
    (hcloser : closer.toList.getLast? ≠ some '\r') (front : String) :
    (front ++ closer).toList.getLast? ≠ some '\r' := by
  rw [String.toList_append, List.getLast?_append_of_ne_nil _ hsome]
  exact hcloser

namespace AgreeInLf

variable {a b c d : String}

theorem refl (ha : a.toList.getLast? ≠ some '\r') : AgreeInLf a a := ⟨rfl, ha, ha⟩

theorem append (hfirst : AgreeInLf a b) (hsecond : AgreeInLf c d) : AgreeInLf (a ++ c) (b ++ d) where
  lf := by rw [lf_append hfirst.whole, lf_append hfirst.whole', hfirst.lf, hsecond.lf]
  whole := getLast?_append_ne hfirst.whole hsecond.whole
  whole' := getLast?_append_ne hfirst.whole' hsecond.whole'

theorem join {as bs : List String} (hparts : List.Forall₂ AgreeInLf as bs) :
    AgreeInLf (String.join as) (String.join bs) := by
  induction hparts with
  | nil => exact refl (by simp)
  | cons hpart _ ih =>
      rw [String.join_cons, String.join_cons]
      exact hpart.append ih

theorem of_sameLines (hsame : SameLines a.toList b.toList) : AgreeInLf a b where
  lf := by rw [Text.lf, Text.lf, hsame.lineFeeds_eq.1, hsame.lineFeeds_eq.2]
  whole hlast := hsame.notMem_carriageReturn (List.mem_of_getLast? hlast)
  whole' := hsame.getLast?_ne

end AgreeInLf

theorem SameLines.flatMap {f : Char → List Char} (hreturn : f '\r' = ['\r'])
    (hnewline : f '\n' = ['\n']) (hplain : ∀ c, c ≠ '\r' → '\r' ∉ f c) {as bs : List Char}
    (hsame : SameLines as bs) : SameLines (as.flatMap f) (bs.flatMap f) := by
  induction hsame with
  | nil => exact .nil
  | char hc _ ih => exact (SameLines.refl (hplain _ hc)).append ih
  | both _ ih =>
      rw [List.flatMap_cons, List.flatMap_cons, List.flatMap_cons, hreturn, hnewline]
      exact .both ih

end Text

/-! ## Output -/

namespace Html

open Text

theorem notMem_escapeTextChar {c : Char} (hc : c ≠ '\r') : '\r' ∉ escapeTextChar c := by
  unfold escapeTextChar
  split
  · decide
  · decide
  · decide
  · simpa using Ne.symm hc

theorem notMem_escapeAttributeChar {c : Char} (hc : c ≠ '\r') : '\r' ∉ escapeAttributeChar c := by
  unfold escapeAttributeChar
  split
  · decide
  · exact notMem_escapeTextChar hc

theorem sameLines_escapeText {a b : String} (hsame : SameLines a.toList b.toList) :
    SameLines (escapeText a).toList (escapeText b).toList := by
  rw [escapeText, escapeText, String.toList_ofList, String.toList_ofList]
  exact hsame.flatMap (by decide) (by decide) fun _ => notMem_escapeTextChar

theorem sameLines_escapeAttribute {a b : String} (hsame : SameLines a.toList b.toList) :
    SameLines (escapeAttribute a).toList (escapeAttribute b).toList := by
  rw [escapeAttribute, escapeAttribute, String.toList_ofList, String.toList_ofList]
  exact hsame.flatMap (by decide) (by decide) fun _ => notMem_escapeAttributeChar

/-- Line ends of attributes stand between quotes. -/
theorem agree_attributes {attributes others : List (String × String)}
    (hattributes : List.Forall₂
      (fun first second => first.1 = second.1 ∧ Likeness.lineEnds.Shown first.2 second.2 ∧
        (first.1 = "id" → first.2 = second.2)) attributes others)
    {closer : String} (hsome : closer.toList ≠ []) (hcloser : closer.toList.getLast? ≠ some '\r')
    (front : String) :
    AgreeInLf (front ++ (renderAttributes attributes ++ closer))
      (front ++ (renderAttributes others ++ closer)) := by
  induction hattributes generalizing front with
  | nil =>
      rw [← String.append_assoc]
      exact .refl (getLast?_append_closer hsome hcloser _)
  | @cons first second attributes others hentry _ ih =>
      obtain ⟨name, value⟩ := first
      obtain ⟨name', value'⟩ := second
      obtain ⟨rfl : name = name', hshown : value = value' ∨ _, -⟩ := hentry
      have hcons : ∀ (value : String) (rest : List (String × String)),
          front ++ (renderAttributes ((name, value) :: rest) ++ closer) =
            (front ++ " " ++ name ++ "=\"") ++ escapeAttribute value ++
              ("\"" ++ (renderAttributes rest ++ closer)) := by
        intro value rest
        simp [renderAttributes, String.join_cons, String.append_assoc]
      rw [hcons, hcons]
      rcases hshown with rfl | hsame
      · have hrest := ih (front ++ " " ++ name ++ "=\"" ++ escapeAttribute value ++ "\"")
        simpa only [String.append_assoc] using hrest
      · exact (AgreeInLf.append (.refl (getLast?_append_closer (by decide) (by decide) _))
          (.of_sameLines (sameLines_escapeAttribute hsame))).append (ih _)

open Likeness in
theorem Piece.Like.agree {piece other : Piece} (hlike : Piece.Like lineEnds piece other) :
    AgreeInLf piece.render other.render := by
  have hopen : ∀ (closer : String) {element other : Element},
      element.Like lineEnds lineEnds.Shown other → closer.toList ≠ [] →
      closer.toList.getLast? ≠ some '\r' →
      AgreeInLf ("<" ++ element.tag ++ renderAttributes element.attributes ++ closer)
        ("<" ++ other.tag ++ renderAttributes other.attributes ++ closer) := by
    intro closer element other hlike hsome hcloser
    have hgroup : ∀ front attributes : String,
        front ++ attributes ++ closer = front ++ (attributes ++ closer) :=
      fun _ _ => String.append_assoc
    rw [hlike.tag, hgroup, hgroup]
    exact agree_attributes hlike.attributes hsome hcloser _
  cases hlike with
  | openTag helement => exact hopen ">" helement (by decide) (by decide)
  | closeTag tag => exact .refl (getLast?_append_closer (by decide) (by decide) _)
  | text htext => exact .of_sameLines (sameLines_escapeText htext)
  | @whole element other helement =>
      unfold Piece.render renderWhole
      dsimp only
      rw [helement.tag]
      split
      · have hvoid := hopen "/>" helement (by decide) (by decide)
        rwa [helement.tag] at hvoid
      · have hcontent : lineEnds.Shown (element.content.getD "") (other.content.getD "") := by
          have hcontent := helement.content
          generalize element.content = content, other.content = content' at hcontent
          cases hcontent with
          | none => exact .inl rfl
          | some hshown => exact hshown
        have hclosed : ∀ text : String,
            (text ++ renderClose other.tag).toList.getLast? ≠ some '\r' := by
          intro text
          rw [renderClose, ← String.append_assoc]
          exact getLast?_append_closer (by decide) (by decide) _
        rw [String.append_assoc, String.append_assoc]
        refine (hopen ">" helement (by decide) (by decide)).append ?_
        rcases hcontent with hsame | hsame
        · rw [hsame]
          exact .refl (hclosed _)
        · exact (AgreeInLf.of_sameLines (sameLines_escapeText hsame)).append
            (.refl (by simpa using hclosed ""))

end Html

open Text

/-- Pages with the same lines have the same HTML but for its line ends. -/
theorem Forest.Like.agree_html {forest other : Forest}
    (hlike : Forest.Like .lineEnds Likeness.lineEnds.Shown forest other) :
    AgreeInLf forest.html other.html := by
  have hpieces := Tree.forestLike_pieces hlike
  refine AgreeInLf.join ?_
  generalize Tree.forestPieces forest = pieces, Tree.forestPieces other = others at hpieces
  induction hpieces with
  | nil => exact .nil
  | cons hpiece _ ih => exact .cons hpiece.agree ih

/-! ## Headings -/

/-- A text without its carriage returns. -/
def Text.withoutReturns (text : String) : String :=
  String.ofList (text.toList.filter (· != '\r'))

theorem Text.withoutReturns_append (a b : String) :
    withoutReturns (a ++ b) = withoutReturns a ++ withoutReturns b := by
  simp [withoutReturns]

theorem Text.SameLines.withoutReturns {a b : String} (hsame : SameLines a.toList b.toList) :
    Text.withoutReturns a = Text.withoutReturns b := by
  refine congrArg String.ofList ?_
  generalize a.toList = as, b.toList = bs at hsame
  induction hsame with
  | nil => rfl
  | char _ _ ih => simp [List.filter_cons, ih]
  | both _ ih => simp [ih]

theorem Heading.withoutReturns {heading other : Heading}
    (hlike : heading.Like Likeness.lineEnds.Shown other) :
    Text.withoutReturns heading.text = Text.withoutReturns other.text := by
  obtain ⟨parts, others, hparts, htext, htext'⟩ := hlike.texts
  rw [htext, htext']
  clear htext htext'
  induction hparts with
  | nil => rfl
  | cons hpart _ ih =>
      rw [String.join_cons, String.join_cons, withoutReturns_append, withoutReturns_append, ih]
      rcases hpart with rfl | hsame
      · rfl
      · rw [hsame.withoutReturns]

/-- No description of a media file ends with a carriage return, which would go with a line feed
of the page after it. -/
def Registries.EndsNoLine (registries : Registries) : Prop :=
  ∀ name media, registries.media? name = some media →
    media.description.toList.getLast? ≠ some '\r'

/-- Texts that differ in their line ends, or the same texts with whole line ends. -/
def Text.AgreeWhole (a b : String) : Prop :=
  SameLines a.toList b.toList ∨ a = b ∧ a.toList.getLast? ≠ some '\r'

theorem Heading.agree {heading other : Heading} (hlike : heading.Like AgreeWhole other) :
    AgreeInLf heading.text other.text := by
  obtain ⟨parts, others, hparts, htext, htext'⟩ := hlike.texts
  rw [htext, htext']
  refine AgreeInLf.join (hparts.imp fun a b hpart => ?_)
  rcases hpart with hsame | ⟨rfl, hwhole⟩
  · exact .of_sameLines hsame
  · exact .refl hwhole

/-! ## Pages -/

/-- Documents that say the same, where only the line ends in texts differ. -/
structure Document.SameButLineEnds (registries : Registries) (document other : Document) :
    Prop where
  title : document.title = other.title
  contributors : document.contributors = other.contributors
  flags : document.flags = other.flags
  commands : document.commands = other.commands
  unresolved : document.unresolved = other.unresolved
  html : lf document.html = lf other.html
  headings : document.headings.map (fun heading => (heading.depth, heading.slug)) =
    other.headings.map fun heading => (heading.depth, heading.slug)
  /-- Texts of headings are the same but for carriage returns, -/
  returns : document.headings.map (fun heading => withoutReturns heading.text) =
    other.headings.map fun heading => withoutReturns heading.text
  /-- and but for line ends unless a registry ends a text with a carriage return. -/
  texts : registries.EndsNoLine → document.headings.map (fun heading => lf heading.text) =
    other.headings.map fun heading => lf heading.text

theorem Heading.map_eq {C : String → String → Prop} {α : Type} {f : Heading → α}
    (hf : ∀ heading other : Heading, heading.Like C other → f heading = f other)
    {headings others : List Heading} (hlike : List.Forall₂ (Heading.Like C) headings others) :
    headings.map f = others.map f := by
  induction hlike with
  | nil => rfl
  | cons hheading _ ih => rw [List.map_cons, List.map_cons, hf _ _ hheading, ih]

theorem Document.Like.sameButLineEnds {registries : Registries} {document other : Document}
    (hlike : document.Like .lineEnds Likeness.lineEnds.Shown other)
    (hwhole : registries.EndsNoLine →
      List.Forall₂ (Heading.Like AgreeWhole) document.headings other.headings) :
    document.SameButLineEnds registries other where
  title := hlike.title
  contributors := hlike.contributors
  flags := hlike.flags
  commands := hlike.commands
  unresolved := hlike.unresolved
  html := hlike.body.agree_html.lf
  headings := Heading.map_eq (fun _ _ hheading => Prod.ext hheading.depth hheading.slug)
    hlike.headings
  returns := Heading.map_eq (fun _ _ => Heading.withoutReturns) hlike.headings
  texts hends := Heading.map_eq (fun _ _ hheading => (Heading.agree hheading).lf) (hwhole hends)

namespace Source

/-- A carriage return before every line feed leaves a source alike. -/
theorem like_crlf {clusters : List String} (hplain : HasNoReturns clusters) :
    Source.Like .lineEnds (ofClusters clusters) (ofClusters (clusters.map Text.crlf)) where
  placed := trivial
  isEmpty := by cases clusters <;> rfl
  lexemes := like_lexemes_crlf hplain
  directives := (directives_crlf clusters).symm
  arguments directive hmem := .refl (Directive.notMem_directives hplain directive hmem)

/-- Pages with the same lines are compiled with the same happenings and end alike. -/
theorem compile_crlf {clusters : List String} (hplain : HasNoReturns clusters)
    (registries : Registries) :
    ((ofClusters clusters).compile registries).1 =
        ((ofClusters (clusters.map Text.crlf)).compile registries).1 ∧
      Fault.Outcome .lineEnds (Document.SameButLineEnds registries)
        ((ofClusters clusters).compile registries).2
        ((ofClusters (clusters.map Text.crlf)).compile registries).2 := by
  have hlike := like_crlf hplain
  obtain ⟨hhappenings, houtcome⟩ := hlike.compile (fun _ _ => .inr) (fun _ _ => id)
    (Embed.registered_shown registries)
  refine ⟨hhappenings, ?_⟩
  generalize hfirst : ((ofClusters clusters).compile registries).2 = outcome,
    hsecond : ((ofClusters (clusters.map Text.crlf)).compile registries).2 = outcome' at houtcome
  cases houtcome with
  | error hfault => exact .error hfault
  | ok hdocuments =>
      refine .ok (hdocuments.sameButLineEnds fun hends => ?_)
      -- what such a registry says does not touch the line ends around it
      obtain ⟨-, hwhole⟩ := hlike.compile (C := AgreeWhole) (fun _ _ => .inl)
        (fun _ _ hagree => hagree.symm.imp And.left id)
        (fun name media hmedia => .inr ⟨rfl, hends name media hmedia⟩)
      rw [hfirst, hsecond] at hwhole
      cases hwhole with
      | ok hdocuments => exact hdocuments.headings

end Source

/-- A text and the same text with a carriage return before every line feed are compiled with
the same diagnostics. Both are refused with the same fault, or the pages are the same but for
line ends in texts. -/
theorem compilePage_crlf {text : String} (hplain : '\r' ∉ text.toList) (file : Option String)
    (registries : Registries) :
    clusters (crlf text) = (clusters text).map crlf ∧
      (compilePage (crlf text) file registries).diagnostics =
        (compilePage text file registries).diagnostics ∧
      ((∃ fault, (compilePage text file registries).outcome = .error fault ∧
          (compilePage (crlf text) file registries).outcome = .error fault) ∨
        ∃ document other, (compilePage text file registries).outcome = .ok document ∧
          (compilePage (crlf text) file registries).outcome = .ok other ∧
          document.SameButLineEnds registries other) := by
  have hclusters := clusters_crlf hplain
  obtain ⟨hhappenings, houtcome⟩ :=
    Source.compile_crlf (Source.hasNoReturns_clusters hplain) registries
  have hstarts := Source.lineStarts_crlf (clusters text)
  refine ⟨hclusters, ?_⟩
  unfold compilePage Compilation.diagnostics
  rw [Source.ofText_eq, Source.ofText_eq, hclusters]
  unfold Source.compilation
  dsimp only
  rw [hstarts, ← hhappenings]
  generalize ((Source.ofClusters (clusters text)).compile registries).2 = outcome,
    ((Source.ofClusters ((clusters text).map crlf)).compile registries).2 = outcome' at houtcome
  cases houtcome with
  | @error fault other hfault =>
      obtain rfl : fault = other := hfault trivial
      exact ⟨rfl, .inl ⟨_, rfl, rfl⟩⟩
  | ok hdocuments => exact ⟨rfl, .inr ⟨_, _, rfl, rfl, hdocuments⟩⟩

/-- A heading over several lines with embeds in it, whose captions come from a registry and
from the page. -/
theorem compilePage_crlf_embeds :
    let registries := Registries.ofLists [] [⟨"m", "l", "a\rd"⟩]
    let text := "!title T\n==[[[m]]]\n[[[m|b\nc]]]==\n>q\n>r"
    '\r' ∉ text.toList ∧ registries.EndsNoLine ∧
      ∃ document other, (compilePage text none registries).outcome = .ok document ∧
        (compilePage (crlf text) none registries).outcome = .ok other ∧
        lf document.html = lf other.html ∧
        document.headings.map (fun heading => lf heading.text) =
          other.headings.map fun heading => lf heading.text := by
  intro registries text
  have hplain : '\r' ∉ text.toList := by decide
  have hends : registries.EndsNoLine := by
    intro name media hmedia
    have hfound : Media.find? [⟨"m", "l", "a\rd"⟩] name = some media := hmedia
    rw [Media.find?] at hfound
    obtain rfl := List.mem_singleton.mp (List.mem_of_find?_eq_some hfound)
    decide
  have hsucceeded : (compilePage text none registries).succeeded = true := by decide +kernel
  obtain ⟨document, hdocument⟩ := Compilation.exists_document hsucceeded
  obtain ⟨-, -, ⟨fault, hfault, -⟩ | ⟨found, other, hfound, hother, hsame⟩⟩ :=
    compilePage_crlf hplain none registries
  · rw [hdocument] at hfault
    cases hfault
  · exact ⟨hplain, hends, found, other, hfound, hother, hsame.html, hsame.texts hends⟩

/-- A description that ends with a carriage return takes the line feed after it. -/
theorem compilePage_crlf_description :
    let registries := Registries.ofLists [] [⟨"m", "l", "d\r"⟩]
    let text := "!title T\n==[[[m]]]\nx=="
    '\r' ∉ text.toList ∧
      ∃ document other, (compilePage text none registries).outcome = .ok document ∧
        (compilePage (crlf text) none registries).outcome = .ok other ∧
        document.headings.map (fun heading => lf heading.text) ≠
          other.headings.map fun heading => lf heading.text := by
  intro registries text
  have hdocument : ((compilePage text none registries).outcome.toOption.map fun document =>
      document.headings.map fun heading => lf heading.text) = some ["d\nx"] := by decide +kernel
  have hother : ((compilePage (crlf text) none registries).outcome.toOption.map fun document =>
      document.headings.map fun heading => lf heading.text) = some ["d\r\nx"] := by decide +kernel
  refine ⟨by decide, ?_⟩
  generalize (compilePage text none registries).outcome = outcome,
    (compilePage (crlf text) none registries).outcome = outcome' at hdocument hother
  cases outcome with
  | error => cases hdocument
  | ok document =>
      cases outcome' with
      | error => cases hother
      | ok other =>
          have htexts : document.headings.map (fun heading => lf heading.text) = ["d\nx"] :=
            Option.some.inj hdocument
          have htexts' : other.headings.map (fun heading => lf heading.text) = ["d\r\nx"] :=
            Option.some.inj hother
          refine ⟨document, other, rfl, rfl, ?_⟩
          rw [htexts, htexts']
          decide

end PageMarkup
