import Mathlib.Data.List.Forall2
import PageMarkup.Link.Embed
import PageMarkup.Proofs.Text.Case
import PageMarkup.Proofs.Text.Trimming

/-! # The arguments of an embed

An argument is read by itself, once the white space around it is gone: it is blank, a width, a
side or a caption. What an embed says is what the last argument of each sort says, so arguments
of different sorts may change places.

The text after the name is cut at its bars into the same arguments, up to blank ones, whether or
not it starts with white space, with a bar or with both.
-/

namespace PageMarkup

namespace Embed

/-! ## One argument -/

/-- What an argument says. -/
inductive Argument where
  | blank
  | width (percent : Nat)
  | side (align : Align)
  | caption (text : String)
  deriving DecidableEq, Repr

/-- A numeral is written with decimal digits, and there may be one plus sign before them. -/
def IsNumeral (text : String) (value : Nat) : Prop :=
  ∃ digits : List Char, digits ≠ [] ∧ (∀ c ∈ digits, c.isDigit = true) ∧
    (text.toList = digits ∨ text.toList = '+' :: digits) ∧ value = Nat.ofDigitChars 10 digits 0

/-- Neither a number that is a width nor a word for a side. -/
structure IsCaption (argument : String) : Prop where
  numeral : ∀ value ≤ widthLimit, ¬IsNumeral argument value
  word : ∀ align : Align, Text.eqIgnoringAsciiCase argument align.name = false

namespace Argument

/-- What an argument without white space around it says. -/
inductive Reads (argument : String) : Argument → Prop where
  | blank (hblank : argument = "") : Reads argument .blank
  | width {percent : Nat} (hnumeral : IsNumeral argument percent) (hlimit : percent ≤ widthLimit) :
      Reads argument (.width percent)
  | side {align : Align} (hword : Text.eqIgnoringAsciiCase argument align.name = true) :
      Reads argument (.side align)
  | caption (hpresent : argument ≠ "") (hcaption : IsCaption argument) :
      Reads argument (.caption argument)

/-- Reads an argument without white space around it. -/
def ofTrimmed (argument : String) : Argument :=
  if argument = "" then .blank
  else
    match parseWidth? argument with
    | some percent => .width percent
    | none =>
      if Text.eqIgnoringAsciiCase argument "left" then .side .left
      else if Text.eqIgnoringAsciiCase argument "right" then .side .right
      else .caption argument

/-- Reads a text between two bars. -/
def ofText (text : String) : Argument := ofTrimmed (Text.trim text)

end Argument

section Words

variable {text : String} {value : Nat}

theorem parseWidth?_eq_some_iff :
    parseWidth? text = some value ↔ IsNumeral text value ∧ value ≤ widthLimit := by
  have hplus : ∀ digits : List Char, (∀ c ∈ digits, c.isDigit = true) → '+' ∉ digits :=
    fun digits hdigits hmem => absurd (hdigits '+' hmem) (by decide)
  constructor
  · intro hparse
    unfold parseWidth? at hparse
    dsimp only at hparse
    split_ifs at hparse with hdigits
    obtain ⟨hnonempty, hall, hlimit⟩ := hdigits
    obtain rfl := Option.some.inj hparse
    refine ⟨⟨_, hnonempty, List.all_eq_true.mp hall, ?_, rfl⟩, hlimit⟩
    rcases Text.dropLeading_cases '+' text with htext | ⟨-, hsame⟩
    · exact .inr htext
    · exact .inl (by rw [hsame])
  · rintro ⟨⟨digits, hnonempty, hdigits, htext, rfl⟩, hlimit⟩
    have hrest : (Text.dropLeading '+' text).toList = digits := by
      rcases Text.dropLeading_cases '+' text with hsign | ⟨hsign, hsame⟩ <;>
        rcases htext with htext | htext
      · exact absurd (by rw [← htext, hsign]; exact List.mem_cons_self) (hplus digits hdigits)
      · exact (List.cons.inj (hsign.symm.trans htext)).2
      · rw [hsame, htext]
      · exact absurd (by rw [htext]; rfl) hsign
    unfold parseWidth?
    dsimp only
    rw [hrest, if_pos ⟨hnonempty, List.all_eq_true.mpr hdigits, hlimit⟩]
    rfl

/-- No word for a side is a numeral. -/
theorem not_isNumeral_of_side {align : Align}
    (hword : Text.eqIgnoringAsciiCase text align.name = true) : ¬IsNumeral text value := by
  rintro ⟨digits, hnonempty, hdigits, htext, -⟩
  obtain ⟨c, hc⟩ := List.exists_mem_of_ne_nil digits hnonempty
  have hmem : c ∈ text.toList := by
    rcases htext with htext | htext
    · exact htext ▸ hc
    · exact htext ▸ List.mem_cons_of_mem _ hc
  have hletters : align.name.toList.any Char.isDigit = false := by cases align <;> decide
  have hdigit := Text.exists_isDigit_of_eqIgnoringAsciiCase hword ⟨c, hmem, hdigits c hc⟩
  rw [List.any_eq_true.mpr hdigit] at hletters
  cases hletters

theorem parseWidth?_eq_none_iff :
    parseWidth? text = none ↔ ∀ value ≤ widthLimit, ¬IsNumeral text value := by
  rw [Option.eq_none_iff_forall_ne_some]
  refine forall_congr' fun value => ?_
  rw [Ne, parseWidth?_eq_some_iff, not_and']

namespace Argument

theorem reads_ofTrimmed (argument : String) : Reads argument (ofTrimmed argument) := by
  unfold ofTrimmed
  by_cases hblank : argument = ""
  · rw [if_pos hblank]
    exact .blank hblank
  rw [if_neg hblank]
  split
  next percent hwidth =>
    obtain ⟨hnumeral, hlimit⟩ := parseWidth?_eq_some_iff.mp hwidth
    exact .width hnumeral hlimit
  next hnone =>
    split_ifs with hleft hright
    · exact .side hleft
    · exact .side hright
    · refine .caption hblank ⟨parseWidth?_eq_none_iff.mp hnone, fun align => ?_⟩
      cases align with
      | left => exact Bool.eq_false_iff.mpr hleft
      | right => exact Bool.eq_false_iff.mpr hright

/-- An argument is read in no other way. -/
theorem Reads.ofTrimmed_eq {argument : Argument} (hreads : Reads text argument) :
    ofTrimmed text = argument := by
  cases hreads with
  | blank hblank => rw [hblank, ofTrimmed, if_pos rfl]
  | width hnumeral hlimit =>
      have hpresent : text ≠ "" := by
        rintro rfl
        obtain ⟨digits, hnonempty, -, hnil | hsign, -⟩ := hnumeral
        · exact hnonempty hnil.symm
        · cases hsign
      rw [ofTrimmed, if_neg hpresent, parseWidth?_eq_some_iff.mpr ⟨hnumeral, hlimit⟩]
  | @side align hword =>
      have hpresent : text ≠ "" := by
        rintro rfl
        cases align <;> cases hword
      rw [ofTrimmed, if_neg hpresent,
        parseWidth?_eq_none_iff.mpr fun _ _ => not_isNumeral_of_side hword]
      cases align with
      | left => exact if_pos hword
      | right =>
          -- the words for the sides are read in turn, and no text is both
          have hleft : ¬Text.eqIgnoringAsciiCase text "left" = true := by
            intro hleft
            have hsame := (eq_of_beq hleft).symm.trans (eq_of_beq hword)
            exact absurd hsame (by decide)
          exact (if_neg hleft).trans (if_pos hword)
  | caption hpresent hcaption =>
      rw [ofTrimmed, if_neg hpresent, parseWidth?_eq_none_iff.mpr hcaption.numeral]
      have hleft := Bool.eq_false_iff.mp (hcaption.word .left)
      have hright := Bool.eq_false_iff.mp (hcaption.word .right)
      exact (if_neg hleft).trans (if_neg hright)

end Argument

end Words

/-! ## What an embed says -/

namespace Argument

/-- Arguments with the same role overrule each other. -/
inductive Role where
  | width
  | side
  | caption
  deriving DecidableEq, Repr

/-- The role of an argument; blank ones have none. -/
def role? : Argument → Option Role
  | .blank => none
  | .width _ => some .width
  | .side _ => some .side
  | .caption _ => some .caption

def width? : Argument → Option Nat
  | .width percent => some percent
  | _ => none

def side? : Argument → Option Align
  | .side align => some align
  | _ => none

def caption? : Argument → Option String
  | .caption text => some text
  | _ => none

end Argument

/-- The embed with a given name whose arguments say what the last one of each role says. -/
def ofArguments (name : String) (arguments : List Argument) : Embed where
  name
  width := (arguments.filterMap Argument.width?).getLast?
  align := (arguments.filterMap Argument.side?).getLast?.getD .right
  caption := (arguments.filterMap Argument.caption?).getLast?

/-- Takes one more argument into account. -/
def say (embed : Embed) : Argument → Embed
  | .blank => embed
  | .width percent => { embed with width := some percent }
  | .side align => { embed with align }
  | .caption text => { embed with caption := some text }

theorem withArgument_eq_say (embed : Embed) {argument : String} (hpresent : argument ≠ "") :
    embed.withArgument argument = embed.say (.ofTrimmed argument) := by
  unfold withArgument Argument.ofTrimmed
  rw [if_neg hpresent]
  cases parseWidth? argument with
  | some percent => rfl
  | none =>
      dsimp only
      split_ifs <;> rfl

/-- Reading arguments one by one takes what they say into account. -/
theorem foldl_withArgument {arguments : List String}
    (hpresent : ∀ argument ∈ arguments, argument ≠ "") (embed : Embed) :
    arguments.foldl withArgument embed = (arguments.map .ofTrimmed).foldl say embed := by
  rw [List.foldl_map]
  exact List.foldl_ext _ _ embed fun embed argument hmem =>
    withArgument_eq_say embed (hpresent argument hmem)

/-- Later arguments overrule earlier ones with the same role and what the embed said before. -/
theorem foldl_say (arguments : List Argument) (embed : Embed) :
    arguments.foldl say embed =
      { name := embed.name
        width := (arguments.filterMap Argument.width?).getLast?.or embed.width
        align := (arguments.filterMap Argument.side?).getLast?.getD embed.align
        caption := (arguments.filterMap Argument.caption?).getLast?.or embed.caption } := by
  induction arguments generalizing embed with
  | nil => rfl
  | cons argument rest ih =>
      rw [List.foldl_cons, ih]
      cases argument <;>
        simp [say, Argument.width?, Argument.side?, Argument.caption?, List.getLast?_cons]

theorem foldl_say_name (name : String) (arguments : List Argument) :
    arguments.foldl say { name } = ofArguments name arguments := by
  rw [foldl_say]
  simp [ofArguments]

/-- Blank texts say nothing. -/
theorem foldl_say_present (texts : List String) (embed : Embed) :
    (((texts.map Text.trim).filter (!·.isEmpty)).map Argument.ofTrimmed).foldl say embed =
      (texts.map Argument.ofText).foldl say embed := by
  rw [List.foldl_map, List.foldl_filter, List.foldl_map, List.foldl_map]
  refine List.foldl_ext _ _ embed fun embed text _ => ?_
  split_ifs with hpresent
  · rfl
  · have hblank : Text.trim text = "" := by simpa using hpresent
    rw [Argument.ofText, hblank]
    rfl

/-- What only the arguments of one role tell is told alike by texts that agree in those. -/
theorem filterMap_ofText_congr {β : Type} {read : Argument → Option β} {role : Argument.Role}
    (hread : ∀ argument, argument.role? ≠ some role → read argument = none)
    {texts others : List String}
    (hrole : others.filter (fun text => (Argument.ofText text).role? = some role) =
      texts.filter fun text => (Argument.ofText text).role? = some role) :
    (others.map Argument.ofText).filterMap read = (texts.map Argument.ofText).filterMap read := by
  have hfilter : ∀ list : List String, (list.map Argument.ofText).filterMap read =
      (list.filter fun text => (Argument.ofText text).role? = some role).filterMap
        (read ∘ Argument.ofText) := by
    intro list
    rw [List.filterMap_map, List.filterMap_filter]
    refine List.filterMap_congr fun text _ => ?_
    split_ifs with htext
    · rfl
    · exact hread _ (by simpa using htext)
  rw [hfilter, hfilter, hrole]

/-- Arguments that come in the same order within each role say the same. -/
theorem ofArguments_congr (name : String) {texts others : List String}
    (hroles : ∀ role : Argument.Role,
      others.filter (fun text => (Argument.ofText text).role? = some role) =
        texts.filter fun text => (Argument.ofText text).role? = some role) :
    ofArguments name (others.map .ofText) = ofArguments name (texts.map .ofText) := by
  have hwidth : ∀ argument : Argument, argument.role? ≠ some .width → argument.width? = none := by
    rintro (_ | _ | _ | _) hrole <;> first | rfl | exact absurd rfl hrole
  have hside : ∀ argument : Argument, argument.role? ≠ some .side → argument.side? = none := by
    rintro (_ | _ | _ | _) hrole <;> first | rfl | exact absurd rfl hrole
  have hcaption : ∀ argument : Argument, argument.role? ≠ some .caption →
      argument.caption? = none := by
    rintro (_ | _ | _ | _) hrole <;> first | rfl | exact absurd rfl hrole
  rw [ofArguments, filterMap_ofText_congr hwidth (hroles .width),
    filterMap_ofText_congr hside (hroles .side), filterMap_ofText_congr hcaption (hroles .caption),
    ofArguments]

/-! ## Cutting the text after the name -/

/-- The texts between the bars of a text, trimmed; blank ones are left out. -/
def fields (text : String) : List String :=
  ((Text.splitOnChar '|' text).map Text.trim).filter (!·.isEmpty)

theorem fields_trimStart (text : String) : fields (Text.trimStart text) = fields text := by
  rw [fields, Text.splitOnChar_trimStart text (by decide), fields]

theorem fields_trimEnd (text : String) : fields (Text.trimEnd text) = fields text := by
  rw [fields, Text.splitOnChar_trimEnd text (by decide), fields]

theorem splitOnChar_of_notMem {text : String} (hbar : '|' ∉ text.toList) :
    Text.splitOnChar '|' text = [text] := by
  have hall : ∀ c ∈ text.toList, (c == '|') = false :=
    fun c hc => beq_eq_false_iff_ne.mpr fun heq => hbar (heq ▸ hc)
  rw [Text.splitOnChar, Text.splitAtEach_of_forall hall, List.map_singleton, String.ofList_toList]

theorem splitOnChar_append {first : String} (hbar : '|' ∉ first.toList) (rest : String) :
    Text.splitOnChar '|' (first ++ "|" ++ rest) = first :: Text.splitOnChar '|' rest := by
  have hall : ∀ c ∈ first.toList, (c == '|') = false :=
    fun c hc => beq_eq_false_iff_ne.mpr fun heq => hbar (heq ▸ hc)
  have hlist : (first ++ "|" ++ rest).toList = first.toList ++ '|' :: rest.toList := by simp
  rw [Text.splitOnChar, hlist, Text.splitAtEach_append hall (by rfl), List.map_cons,
    String.ofList_toList, Text.splitOnChar]

theorem fields_dropLeading (text : String) : fields (Text.dropLeading '|' text) = fields text := by
  rcases Text.dropLeading_cases '|' text with hbar | ⟨-, hsame⟩
  · have hwhole : text = "" ++ "|" ++ Text.dropLeading '|' text := by
      apply String.toList_injective
      simpa using hbar
    have hsplit := @splitOnChar_append "" (by decide) (Text.dropLeading '|' text)
    rw [← hwhole] at hsplit
    -- the text before the bar is empty, so it is left out
    rw [fields, fields, hsplit, List.map_cons, List.filter_cons_of_neg (by decide)]
  · rw [hsame]

theorem arguments_eq_fields (rest : String) : arguments rest = fields rest := by
  rw [← fields_trimStart, ← fields_dropLeading]
  rfl

/-- Texts without bars are found again between the bars that join them. -/
theorem splitOnChar_intercalate (first : String) {rest : List String}
    (hbars : ∀ text ∈ first :: rest, '|' ∉ text.toList) :
    Text.splitOnChar '|' ("|".intercalate (first :: rest)) = first :: rest := by
  induction rest generalizing first with
  | nil =>
      rw [String.intercalate_singleton, splitOnChar_of_notMem (hbars first List.mem_cons_self)]
  | cons second rest ih =>
      obtain ⟨hfirst, hrest⟩ := List.forall_mem_cons.mp hbars
      rw [String.intercalate_cons_cons, splitOnChar_append hfirst, ih second hrest]

theorem fields_intercalate {texts : List String} (hbars : ∀ text ∈ texts, '|' ∉ text.toList) :
    fields ("|".intercalate texts) = (texts.map Text.trim).filter (!·.isEmpty) := by
  cases texts with
  | nil => rfl
  | cons first rest => rw [fields, splitOnChar_intercalate first hbars]

/-! ## The name -/

section Names

variable {name rest : String} {texts : List String}

/-- A name goes up to the first bar or white space, and arguments are all that is read after it. -/
theorem parse_append (hname : name ≠ "")
    (hword : ∀ c ∈ name.toList, c ≠ '|' ∧ Text.isBlank c = false)
    (hrest : ∀ c ∈ rest.toList.head?, c = '|' ∨ Text.isBlank c = true) :
    parse (name ++ rest) = (fields rest).foldl withArgument { name } := by
  -- the name is no white space, so only the end of the rest can be trimmed
  have htrim : Text.trim (name ++ rest) = name ++ Text.trimEnd rest := by
    have hstart : Text.trimStart (name ++ rest) = name ++ rest := by
      obtain ⟨c, others, hcons⟩ := List.exists_cons_of_ne_nil
        (fun hnil => hname (String.toList_eq_nil_iff.mp hnil) : name.toList ≠ [])
      have hc : Text.isBlank c = false := (hword c (hcons ▸ List.mem_cons_self)).2
      apply String.toList_injective
      rw [Text.trimStart, String.toList_ofList, String.toList_append, hcons, List.cons_append,
        List.dropWhile_cons_of_neg (by rw [hc]; decide)]
    rw [Text.trim, hstart, Text.trimEnd, String.toList_append,
      Text.dropTailWhile_append (fun c hc => (hword c hc).2), String.ofList_append,
      String.ofList_toList, Text.trimEnd]
  have hends : ∀ c ∈ (Text.trimEnd rest).toList.head?, (c == '|' || Text.isBlank c) = true := by
    intro c hc
    rw [Text.trimEnd, String.toList_ofList] at hc
    simpa using hrest c (Text.head?_dropTailWhile hc)
  have hsplit : Text.splitBefore (fun c => c == '|' || Text.isBlank c) (name ++ Text.trimEnd rest) =
      (name, Text.trimEnd rest) :=
    Text.splitBefore_append (fun c hc => by simpa using hword c hc) hends
  rw [parse, htrim, hsplit]
  dsimp only
  rw [arguments_eq_fields, fields_trimEnd]

/-- Arguments without bars are read one by one, with a bar or white space before the first. -/
theorem parse_intercalate_eq (hname : name ≠ "")
    (hword : ∀ c ∈ name.toList, c ≠ '|' ∧ Text.isBlank c = false)
    (hbars : ∀ text ∈ texts, '|' ∉ text.toList) :
    parse ("|".intercalate (name :: texts)) = ofArguments name (texts.map .ofText) ∧
      ∀ gap : String, gap ≠ "" → Text.isBlankText gap = true →
        parse (name ++ (gap ++ "|".intercalate texts)) =
          ofArguments name (texts.map .ofText) := by
  have hread : (fields ("|".intercalate texts)).foldl withArgument { name } =
      ofArguments name (texts.map .ofText) := by
    rw [fields_intercalate hbars, foldl_withArgument (by simp), foldl_say_present, foldl_say_name]
  constructor
  · cases texts with
    | nil =>
        have halone := @parse_append name "" hname hword (by simp)
        rw [String.append_empty] at halone
        exact halone.trans hread
    | cons first rest =>
        have hbar : ∀ text, Text.dropLeading '|' ("|" ++ text) = text := by
          simp [Text.dropLeading]
        rw [String.intercalate_cons_cons, String.append_assoc,
          parse_append hname hword (by simp), ← fields_dropLeading, hbar, hread]
  · intro gap hgap hblank
    have hstart : Text.trimStart (gap ++ "|".intercalate texts) =
        Text.trimStart ("|".intercalate texts) := by
      rw [Text.trimStart, String.toList_append,
        List.dropWhile_append_of_pos (List.all_eq_true.mp hblank), Text.trimStart]
    have hhead : ∀ c ∈ (gap ++ "|".intercalate texts).toList.head?,
        c = '|' ∨ Text.isBlank c = true := by
      obtain ⟨d, others, hcons⟩ := List.exists_cons_of_ne_nil
        (fun hnil => hgap (String.toList_eq_nil_iff.mp hnil) : gap.toList ≠ [])
      intro c hc
      rw [String.toList_append, hcons] at hc
      obtain rfl : d = c := by simpa using hc
      exact .inr (List.all_eq_true.mp hblank d (hcons ▸ List.mem_cons_self))
    rw [parse_append hname hword hhead, ← fields_trimStart, hstart, fields_trimStart, hread]

/-- An embed has the width, the side and the caption that the last of its arguments gives which
is a number, a word for a side or neither of them. So arguments with different roles may change
places, blank ones may be left out, and white space may stand for the first bar. -/
theorem parse_intercalate (hname : name ≠ "")
    (hword : ∀ c ∈ name.toList, c ≠ '|' ∧ Text.isBlank c = false)
    (hbars : ∀ text ∈ texts, '|' ∉ text.toList) :
    (∃ arguments, List.Forall₂ Argument.Reads (texts.map Text.trim) arguments ∧
      parse ("|".intercalate (name :: texts)) = ofArguments name arguments) ∧
    (∀ others, (∀ text ∈ others, '|' ∉ text.toList) →
      (∀ role : Argument.Role,
        others.filter (fun text => (Argument.ofText text).role? = some role) =
          texts.filter fun text => (Argument.ofText text).role? = some role) →
      parse ("|".intercalate (name :: others)) = parse ("|".intercalate (name :: texts))) ∧
    (∀ before blank after, texts = before ++ blank :: after → Text.isBlankText blank = true →
      parse ("|".intercalate (name :: (before ++ after))) =
        parse ("|".intercalate (name :: texts))) ∧
    ∀ gap : String, gap ≠ "" → Text.isBlankText gap = true →
      parse (name ++ (gap ++ "|".intercalate texts)) = parse ("|".intercalate (name :: texts)) := by
  obtain ⟨hparse, hgap⟩ := parse_intercalate_eq hname hword hbars
  have hmoved : ∀ others : List String, (∀ text ∈ others, '|' ∉ text.toList) →
      (∀ role : Argument.Role,
        others.filter (fun text => (Argument.ofText text).role? = some role) =
          texts.filter fun text => (Argument.ofText text).role? = some role) →
      parse ("|".intercalate (name :: others)) = parse ("|".intercalate (name :: texts)) := by
    intro others hothers hroles
    rw [(parse_intercalate_eq hname hword hothers).1, ofArguments_congr name hroles, hparse]
  refine ⟨⟨texts.map .ofText, ?_, hparse⟩, hmoved, ?_, fun gap hsome hblank => ?_⟩
  · exact List.forall₂_map_left_iff.mpr (List.forall₂_map_right_iff.mpr
      (List.forall₂_same.mpr fun text _ => Argument.reads_ofTrimmed (Text.trim text)))
  · -- a blank text has no role, so without it each role has the same texts
    rintro before blank after rfl hblank
    have hempty : Text.trim blank = "" :=
      String.isEmpty_iff.mp (by rw [Text.isEmpty_trim, hblank])
    refine hmoved _ (fun text hmem => hbars text ?_) fun role => ?_
    · rw [List.mem_append, List.mem_cons]
      exact (List.mem_append.mp hmem).imp_right .inr
    · have hnone : (Argument.ofText blank).role? = none := by
        rw [Argument.ofText, hempty]
        rfl
      rw [List.filter_append, List.filter_append, List.filter_cons_of_neg (by simp [hnone])]
  · rw [hgap gap hsome hblank, hparse]

theorem parse_intercalate_logo :
    (∃ arguments, List.Forall₂ Argument.Reads ["LEFT", "40", "", "A cat", "50"] arguments ∧
      parse ("|".intercalate ["logo.png", "LEFT", " 40 ", "", "A cat", "50"]) =
        ofArguments "logo.png" arguments) ∧
    parse ("|".intercalate ["logo.png", "A cat", " 40 ", "50", "LEFT"]) =
      parse ("|".intercalate ["logo.png", "LEFT", " 40 ", "", "A cat", "50"]) ∧
    parse ("logo.png" ++ (" " ++ "|".intercalate ["LEFT", " 40 ", "", "A cat", "50"])) =
      parse ("|".intercalate ["logo.png", "LEFT", " 40 ", "", "A cat", "50"]) := by
  have hword : ∀ c ∈ "logo.png".toList, c ≠ '|' ∧ Text.isBlank c = false :=
    List.forall_iff_forall_mem.mp (by decide)
  have hall := @parse_intercalate "logo.png" ["LEFT", " 40 ", "", "A cat", "50"]
    (by decide) hword (by decide)
  refine ⟨hall.1, hall.2.1 ["A cat", " 40 ", "50", "LEFT"] (by decide) ?_,
    hall.2.2.2 " " (by decide) (by decide)⟩
  rintro (_ | _ | _) <;> decide +kernel

example : parse "logo.png LEFT| 40 ||A cat|50" =
    { name := "logo.png", width := some 50, align := .left, caption := some "A cat" } := by
  decide +kernel

end Names

end Embed

end PageMarkup
