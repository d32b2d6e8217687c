import PageMarkup.Proofs.Html.Reader

/-! # What is written reads back

Escaped texts contain no bracket and escaped values no quote, so the reader finds the
ends of texts, tags and values where the writer put them, and replacing entities gives
the characters back. It follows that the HTML of a forest reads back as its events,
whatever the texts and the values are, as long as tags and attributes have plain names.
-/

namespace PageMarkup

namespace Html

/-- A name of letters and digits, as tags and attributes have. -/
def IsName (name : String) : Prop := name.toList ≠ [] ∧ ∀ c ∈ name.toList, c.isAlphanum

instance (name : String) : Decidable (IsName name) :=
  decidable_of_iff ((!name.toList.isEmpty && name.toList.all Char.isAlphanum) = true)
    (by simp [IsName])

theorem unescape_cons {c : Char} (hc : c ≠ '&') (rest : List Char) :
    unescape (c :: rest) = c :: unescape rest := by
  rw [unescape] <;> simp [hc]

theorem unescape_escapeTextChar (c : Char) (rest : List Char) :
    unescape (escapeTextChar c ++ rest) = c :: unescape rest := by
  unfold escapeTextChar
  split
  next => rfl
  next => rfl
  next => rfl
  next hamp _ _ => exact unescape_cons hamp rest

theorem unescape_escapeAttributeChar (c : Char) (rest : List Char) :
    unescape (escapeAttributeChar c ++ rest) = c :: unescape rest := by
  unfold escapeAttributeChar
  split
  next => rfl
  next => exact unescape_escapeTextChar c rest

/-- Replacing entities undoes an escape that it undoes for every character. -/
theorem unescape_flatMap {escape : Char → List Char}
    (hescape : ∀ c rest, unescape (escape c ++ rest) = c :: unescape rest) (cs : List Char) :
    unescape (cs.flatMap escape) = cs := by
  induction cs with
  | nil => rfl
  | cons c rest ih => rw [List.flatMap_cons, hescape, ih]

theorem escapeTextChar_ne_nil (c : Char) : escapeTextChar c ≠ [] := by
  unfold escapeTextChar
  split <;> simp

theorem mem_escapeTextChar {c d : Char} (hmem : d ∈ escapeTextChar c) : d ≠ '<' ∧ d ≠ '>' := by
  unfold escapeTextChar at hmem
  split at hmem
  case h_4 hlt hgt =>
    obtain rfl : d = c := by simpa using hmem
    exact ⟨hlt, hgt⟩
  all_goals
    revert d
    simp

theorem mem_escapeAttributeChar {c d : Char} (hmem : d ∈ escapeAttributeChar c) :
    d ≠ '<' ∧ d ≠ '>' ∧ d ≠ '"' := by
  unfold escapeAttributeChar at hmem
  split at hmem
  next =>
    revert d
    simp
  next hquote =>
    obtain ⟨hlt, hgt⟩ := mem_escapeTextChar hmem
    refine ⟨hlt, hgt, ?_⟩
    rintro rfl
    unfold escapeTextChar at hmem
    split at hmem <;> simp_all [eq_comm]

theorem escapeText_append (first second : String) :
    escapeText (first ++ second) = escapeText first ++ escapeText second := by
  simp [escapeText]

theorem unescape_escapeText (content : String) :
    unescape (escapeText content).toList = content.toList := by
  rw [escapeText, String.toList_ofList, unescape_flatMap unescape_escapeTextChar]

theorem unescape_escapeAttribute (value : String) :
    unescape (escapeAttribute value).toList = value.toList := by
  rw [escapeAttribute, String.toList_ofList, unescape_flatMap unescape_escapeAttributeChar]

theorem readText_escapeText (content : String) :
    readText (escapeText content).toList = if content.isEmpty then [] else [.text content] := by
  unfold readText
  rw [unescape_escapeText, String.ofList_toList]
  have hempty : (escapeText content).toList = [] ↔ content = "" := by
    simp [escapeText, escapeTextChar_ne_nil, ← List.eq_nil_iff_forall_not_mem]
  simp [hempty]

/-! ## Texts and tags -/

theorem readFrom_append {cs : List Char} (hcs : ∀ c ∈ cs, c ≠ '<') (text rest : List Char) :
    readFrom text (cs ++ rest) = readFrom (text ++ cs) rest := by
  induction cs generalizing text with
  | nil => simp
  | cons c cs ih =>
      obtain ⟨hc, hcs⟩ := List.forall_mem_cons.mp hcs
      rw [List.cons_append, readFrom, if_neg hc, ih hcs]
      simp

theorem readInTag_append {cs : List Char} (hcs : ∀ c ∈ cs, c ≠ '>') (tag rest : List Char) :
    readInTag tag (cs ++ '>' :: rest) =
      (readTag? (tag ++ cs)).bind fun event => (readFrom [] rest).map (event :: ·) := by
  induction cs generalizing tag with
  | nil => rw [List.nil_append, readInTag, if_pos rfl, List.append_nil]
  | cons c cs ih =>
      obtain ⟨hc, hcs⟩ := List.forall_mem_cons.mp hcs
      rw [List.cons_append, readInTag, if_neg hc, ih hcs]
      simp

/-- A tag between its brackets ends the text before it and is read on its own. -/
theorem readFrom_tag {body : List Char} {event : Event} (hbody : ∀ c ∈ body, c ≠ '>')
    (hread : readTag? body = some event) (text rest : List Char) :
    readFrom text ('<' :: (body ++ '>' :: rest)) =
      (readFrom [] rest).map fun events => readText text ++ event :: events := by
  rw [readFrom, if_pos rfl, readInTag_append hbody, List.nil_append, hread]
  cases readFrom [] rest <;> rfl

/-! ## Attributes -/

theorem IsName.ne {name : String} (hname : IsName name) {mark : Char}
    (hmark : mark.isAlphanum = false) : ∀ c ∈ name.toList, c ≠ mark := by
  rintro c hmem rfl
  have hc := hname.2 c hmem
  rw [hmark] at hc
  cases hc

theorem readName?_append {name : List Char} (hname : ∀ c ∈ name, c ≠ '=')
    (passed rest : List Char) :
    readName? passed (name ++ '=' :: rest) = readQuote? (passed ++ name) rest := by
  induction name generalizing passed with
  | nil => rw [List.nil_append, readName?, if_pos rfl, List.append_nil]
  | cons c name ih =>
      obtain ⟨hc, hname⟩ := List.forall_mem_cons.mp hname
      rw [List.cons_append, readName?, if_neg hc, ih hname]
      simp

theorem readValue?_append {value : List Char} (hvalue : ∀ c ∈ value, c ≠ '"')
    (name passed rest : List Char) :
    readValue? name passed (value ++ '"' :: rest) =
      (readAttributes? rest).map fun (attributes, closed) =>
        ((String.ofList name, String.ofList (unescape (passed ++ value))) :: attributes,
          closed) := by
  induction value generalizing passed with
  | nil => rw [List.nil_append, readValue?, if_pos rfl, List.append_nil]
  | cons c value ih =>
      obtain ⟨hc, hvalue⟩ := List.forall_mem_cons.mp hvalue
      rw [List.cons_append, readValue?, if_neg hc, ih hvalue]
      simp

theorem toList_renderAttributes_cons (name value : String)
    (others : List (String × String)) :
    (renderAttributes ((name, value) :: others)).toList =
      ' ' :: (name.toList ++ '=' :: '"' :: ((escapeAttribute value).toList ++
        '"' :: (renderAttributes others).toList)) := by
  simp [renderAttributes, String.join_cons]

theorem readAttributes?_append {attributes : List (String × String)}
    (hnames : ∀ entry ∈ attributes, IsName entry.1) (rest : List Char) :
    readAttributes? ((renderAttributes attributes).toList ++ rest) =
      (readAttributes? rest).map fun (more, closed) => (attributes ++ more, closed) := by
  induction attributes with
  | nil => cases hrest : readAttributes? rest <;> simp [renderAttributes, hrest]
  | cons entry others ih =>
      obtain ⟨name, value⟩ := entry
      obtain ⟨hname, hnames⟩ := List.forall_mem_cons.mp hnames
      have hvalue : ∀ c ∈ (escapeAttribute value).toList, c ≠ '"' := by
        intro c hmem
        rw [escapeAttribute, String.toList_ofList] at hmem
        obtain ⟨d, -, hmem⟩ := List.mem_flatMap.mp hmem
        exact (mem_escapeAttributeChar hmem).2.2
      rw [toList_renderAttributes_cons]
      simp only [List.cons_append, List.append_assoc]
      rw [readAttributes?, if_pos rfl, readName?_append (hname.ne rfl), readQuote?, if_pos rfl,
        readValue?_append hvalue, ih hnames]
      simp only [List.nil_append, unescape_escapeAttribute, String.ofList_toList]
      cases readAttributes? rest <;> rfl

/-! ## Tags -/

/-- The element has a plain name, and so have its attributes. -/
def HasPlainNames (element : Element) : Prop :=
  IsName element.tag ∧ ∀ entry ∈ element.attributes, IsName entry.1

theorem takeWhile_renderAttributes (attributes : List (String × String)) {tail : List Char}
    (htail : tail = [] ∨ tail = ['/']) :
    ((renderAttributes attributes).toList ++ tail).takeWhile isTagChar = [] := by
  cases attributes with
  | nil => rcases htail with rfl | rfl <;> simp [renderAttributes, isTagChar]
  | cons entry others =>
      obtain ⟨name, value⟩ := entry
      rw [toList_renderAttributes_cons]
      simp [isTagChar]

theorem readTag?_append {element : Element} (hplain : HasPlainNames element) {tail : List Char}
    (htail : tail = [] ∨ tail = ['/']) :
    readTag? (element.tag.toList ++ (renderAttributes element.attributes).toList ++ tail) =
      (readAttributes? tail).map fun (_, closed) =>
        if closed then .selfClosing element.tag element.attributes
        else .opening element.tag element.attributes := by
  obtain ⟨htag, hnames⟩ := hplain
  have hall : ∀ c ∈ element.tag.toList, isTagChar c = true := by
    intro c hmem
    have hspace : c ≠ ' ' := htag.ne rfl c hmem
    have hslash : c ≠ '/' := htag.ne rfl c hmem
    simp [isTagChar, hspace, hslash]
  have htake := takeWhile_renderAttributes element.attributes htail
  have hdrop : ((renderAttributes element.attributes).toList ++ tail).dropWhile isTagChar =
      (renderAttributes element.attributes).toList ++ tail := by
    simpa [htake] using List.takeWhile_append_dropWhile
      (p := isTagChar) (l := (renderAttributes element.attributes).toList ++ tail)
  rw [List.append_assoc]
  unfold readTag?
  split
  next rest hslash =>
    -- A tag has a name, and no name begins with a slash.
    cases htoList : element.tag.toList with
    | nil => exact absurd htoList htag.1
    | cons c cs =>
        rw [htoList] at hslash
        injection hslash with hc
        exact absurd hc (htag.ne rfl c (by simp [htoList]))
  next =>
    rw [List.takeWhile_append_of_pos hall, List.dropWhile_append_of_pos hall, htake, hdrop,
      readAttributes?_append hnames, List.append_nil, String.ofList_toList]
    rcases htail with rfl | rfl <;> simp [readAttributes?]

theorem toList_ne_close {element : Element} (hplain : HasPlainNames element) {tail : List Char}
    (htail : tail = [] ∨ tail = ['/']) :
    ∀ c ∈ element.tag.toList ++ (renderAttributes element.attributes).toList ++ tail,
      c ≠ '>' := by
  obtain ⟨htag, hnames⟩ := hplain
  have hattributes : ∀ c ∈ (renderAttributes element.attributes).toList, c ≠ '>' := by
    generalize element.attributes = attributes at hnames
    induction attributes with
    | nil => simp [renderAttributes]
    | cons entry others ih =>
        obtain ⟨name, value⟩ := entry
        obtain ⟨hname, hnames⟩ := List.forall_mem_cons.mp hnames
        have hvalue : ∀ c ∈ (escapeAttribute value).toList, c ≠ '>' := by
          intro c hmem
          rw [escapeAttribute, String.toList_ofList] at hmem
          obtain ⟨d, -, hmem⟩ := List.mem_flatMap.mp hmem
          exact (mem_escapeAttributeChar hmem).2.1
        have hname : ∀ c ∈ name.toList, c ≠ '>' := hname.ne rfl
        have ih := ih hnames
        rw [toList_renderAttributes_cons]
        simp only [List.mem_cons, List.mem_append]
        rintro c (rfl | hmem | rfl | rfl | hmem | rfl | hmem)
        · decide
        · exact hname c hmem
        · decide
        · decide
        · exact hvalue c hmem
        · decide
        · exact ih c hmem
  simp only [List.mem_append]
  rintro c ((hmem | hmem) | hmem)
  · exact htag.ne rfl c hmem
  · exact hattributes c hmem
  · rcases htail with rfl | rfl <;> simp_all

/-! ## Pieces -/

/-- The events of a piece of output. -/
def Piece.events : Piece → List Event
  | .openTag element => [.opening element.tag element.attributes]
  | .closeTag tag => [.closing tag]
  | .whole element =>
    if voidTags.contains element.tag then [.selfClosing element.tag element.attributes]
    else
      [.opening element.tag element.attributes, .text (element.content.getD ""),
        .closing element.tag]
  | .text content => [.text content]

/-- The tags of the piece have plain names. -/
def Piece.IsPlain : Piece → Prop
  | .openTag element | .whole element => HasPlainNames element
  | .closeTag tag => IsName tag
  | .text _ => True

/-- The event is no text, so that a text before it ends there. -/
def Event.IsTag : Event → Prop
  | .text _ => False
  | _ => True

theorem joinTexts_tag {event : Event} (htag : event.IsTag) (rest : List Event) :
    joinTexts (event :: rest) = event :: joinTexts rest := by
  cases event with
  | text content => exact htag.elim
  | _ => rfl

theorem joinTexts_text_tag (content : String) {event : Event} (htag : event.IsTag)
    (rest : List Event) :
    joinTexts (.text content :: event :: rest) =
      (if content.isEmpty then [] else [Event.text content]) ++ event :: joinTexts rest := by
  rw [joinTexts, joinTexts_tag htag]
  cases event with
  | text other => exact htag.elim
  | _ => by_cases hempty : content.isEmpty <;> simp [hempty]

theorem joinTexts_text_text (first second : String) (rest : List Event) :
    joinTexts (.text first :: .text second :: rest) =
      joinTexts (.text (first ++ second) :: rest) := by
  simp only [joinTexts]
  generalize joinTexts rest = joined
  by_cases hsecond : second = ""
  · subst hsecond
    cases joined with
    | nil => simp
    | cons event others => cases event <;> simp
  · cases joined with
    | nil => simp [hsecond]
    | cons event others => cases event <;> simp [hsecond, String.append_assoc]

theorem joinTexts_empty (rest : List Event) : joinTexts (.text "" :: rest) = joinTexts rest := by
  rw [joinTexts]
  split <;> simp_all

/-- Reading what is written gives the events and then those of what follows, whatever
text has been passed before it. -/
def Writes (written : List Char) (events : List Event) : Prop :=
  ∀ rest more,
    (∀ content : String,
      readFrom (escapeText content).toList rest = some (joinTexts (.text content :: more))) →
    ∀ content : String, readFrom (escapeText content).toList (written ++ rest) =
      some (joinTexts (.text content :: (events ++ more)))

theorem Writes.nil : Writes [] [] := fun _ _ hrest => hrest

theorem Writes.append {first second : List Char} {events more : List Event}
    (hfirst : Writes first events) (hsecond : Writes second more) :
    Writes (first ++ second) (events ++ more) := by
  intro rest others hrest
  rw [List.append_assoc, List.append_assoc]
  exact hfirst _ _ (hsecond rest others hrest)

theorem writes_text (content : String) :
    Writes (escapeText content).toList [.text content] := by
  intro rest more hrest passed
  have hcontent : ∀ c ∈ (escapeText content).toList, c ≠ '<' := by
    intro c hmem
    rw [escapeText, String.toList_ofList] at hmem
    obtain ⟨d, -, hmem⟩ := List.mem_flatMap.mp hmem
    exact (mem_escapeTextChar hmem).1
  rw [readFrom_append hcontent, ← String.toList_append, ← escapeText_append, hrest,
    List.singleton_append, joinTexts_text_text]

theorem writes_tag {body : List Char} {event : Event} (hbody : ∀ c ∈ body, c ≠ '>')
    (hread : readTag? body = some event) (htag : event.IsTag) :
    Writes ('<' :: (body ++ ['>'])) [event] := by
  intro rest more hrest passed
  have hrest := hrest ""
  rw [show (escapeText "").toList = [] from rfl, joinTexts_empty] at hrest
  have hshape : '<' :: (body ++ ['>']) ++ rest = '<' :: (body ++ '>' :: rest) := by simp
  rw [hshape, readFrom_tag hbody hread, hrest, readText_escapeText, List.singleton_append,
    joinTexts_text_tag passed htag]
  rfl

theorem writes_open {element : Element} (hplain : HasPlainNames element) :
    Writes (renderOpen element).toList [.opening element.tag element.attributes] := by
  have hread : readTag? (element.tag.toList ++ (renderAttributes element.attributes).toList ++ []) =
      some (.opening element.tag element.attributes) := by
    rw [readTag?_append hplain (.inl rfl), readAttributes?]
    rfl
  have hwrites := writes_tag (toList_ne_close hplain (.inl rfl)) hread trivial
  simpa [renderOpen] using hwrites

theorem writes_close {tag : String} (htag : IsName tag) :
    Writes (renderClose tag).toList [.closing tag] := by
  have hbody : ∀ c ∈ '/' :: tag.toList, c ≠ '>' :=
    List.forall_mem_cons.mpr ⟨by decide, htag.ne rfl⟩
  have hread : readTag? ('/' :: tag.toList) = some (.closing tag) := by simp [readTag?]
  have hwrites := writes_tag hbody hread trivial
  simpa [renderClose] using hwrites

theorem writes_void {element : Element} (hplain : HasPlainNames element) :
    Writes ("<" ++ element.tag ++ renderAttributes element.attributes ++ "/>").toList
      [.selfClosing element.tag element.attributes] := by
  have hread : readTag?
      (element.tag.toList ++ (renderAttributes element.attributes).toList ++ ['/']) =
      some (.selfClosing element.tag element.attributes) := by
    rw [readTag?_append hplain (.inr rfl)]
    simp [readAttributes?]
  have hwrites := writes_tag (toList_ne_close hplain (.inr rfl)) hread trivial
  simpa using hwrites

theorem writes_piece {piece : Piece} (hplain : piece.IsPlain) :
    Writes piece.render.toList piece.events := by
  cases piece with
  | openTag element => exact writes_open hplain
  | closeTag tag => exact writes_close hplain
  | text content => exact writes_text content
  | whole element =>
      simp only [Piece.render, renderWhole, Piece.events]
      split
      next => exact writes_void hplain
      next =>
        rw [String.toList_append, String.toList_append]
        exact ((writes_open hplain).append (writes_text _)).append (writes_close hplain.1)

theorem writes_pieces {pieces : List Piece} (hplain : ∀ piece ∈ pieces, piece.IsPlain) :
    Writes (String.join (pieces.map Piece.render)).toList (pieces.flatMap Piece.events) := by
  induction pieces with
  | nil => exact .nil
  | cons piece rest ih =>
      obtain ⟨hpiece, hrest⟩ := List.forall_mem_cons.mp hplain
      rw [List.map_cons, String.join_cons, String.toList_append, List.flatMap_cons]
      exact (writes_piece hpiece).append (ih hrest)

/-- What is written with plain names reads back as its events. -/
theorem read?_pieces {pieces : List Piece} (hplain : ∀ piece ∈ pieces, piece.IsPlain) :
    read? (String.join (pieces.map Piece.render)) =
      some (joinTexts (pieces.flatMap Piece.events)) := by
  have hend : ∀ content : String,
      readFrom (escapeText content).toList [] = some (joinTexts [.text content]) := by
    intro content
    rw [readFrom, readText_escapeText]
    rfl
  have hread := writes_pieces hplain [] [] hend ""
  rwa [List.append_nil, List.append_nil, joinTexts_empty] at hread

end Html

end PageMarkup
