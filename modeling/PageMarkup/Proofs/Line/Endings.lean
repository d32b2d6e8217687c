import Mathlib.Data.List.Forall2
import PageMarkup.Link.Embed
import PageMarkup.Proofs.Line.Clusters
import PageMarkup.Proofs.Text.Trimming

/-! # Texts that differ in how their lines end

A line ends with a line feed, and before it there may be a carriage return. Two texts
differ only in that if some line feeds of the second one have a carriage return before
them that those of the first one lack. White space stays white space, and nothing else is
asked of the characters at the end of a line.
-/

namespace PageMarkup

namespace Text

/-- A line feed with a carriage return before it; any other character as it is. -/
def withReturn (c : Char) : List Char := if c = '\n' then ['\r', '\n'] else [c]

/-- A text with a carriage return before every line feed. -/
def crlf (text : String) : String := String.ofList (text.toList.flatMap withReturn)

/-- A list of characters without the carriage returns that stand before a line feed. -/
def lineFeeds : List Char → List Char
  | [] => []
  | c :: rest => if c = '\r' ∧ rest.head? = some '\n' then lineFeeds rest else c :: lineFeeds rest

/-- A text with a line feed for every carriage return and line feed. -/
def lf (text : String) : String := String.ofList (lineFeeds text.toList)

/-- The second list has more carriage returns, each before a line feed that has none before it
in the first list; the first one has no carriage returns at all. -/
inductive SameLines : List Char → List Char → Prop where
  | nil : SameLines [] []
  | char {c : Char} {as bs : List Char} : c ≠ '\r' → SameLines as bs → SameLines (c :: as) (c :: bs)
  | both {as bs : List Char} : SameLines as bs → SameLines ('\n' :: as) ('\r' :: '\n' :: bs)

namespace SameLines

variable {as bs cs ds : List Char}

theorem refl (has : '\r' ∉ as) : SameLines as as := by
  induction as with
  | nil => exact .nil
  | cons c rest ih =>
      rw [List.mem_cons, not_or] at has
      exact .char (Ne.symm has.1) (ih has.2)

theorem append (hfirst : SameLines as bs) (hsecond : SameLines cs ds) :
    SameLines (as ++ cs) (bs ++ ds) := by
  induction hfirst with
  | nil => exact hsecond
  | char hc _ ih => exact .char hc ih
  | both _ ih => exact .both ih

theorem eq_nil_iff (hsame : SameLines as bs) : as = [] ↔ bs = [] := by
  cases hsame <;> simp

theorem notMem_carriageReturn (hsame : SameLines as bs) : '\r' ∉ as := by
  induction hsame with
  | nil => exact List.not_mem_nil
  | char hc _ ih => simp [Ne.symm hc, ih]
  | both _ ih => simp [ih]

/-- A line feed in one of them is a line feed in both. -/
theorem eq_or_mem (hsame : SameLines as bs) : as = bs ∨ '\n' ∈ as ∧ '\n' ∈ bs := by
  induction hsame with
  | nil => exact .inl rfl
  | char _ _ ih =>
      rcases ih with rfl | ⟨has, hbs⟩
      · exact .inl rfl
      · exact .inr ⟨List.mem_cons_of_mem _ has, List.mem_cons_of_mem _ hbs⟩
  | both _ _ => exact .inr (by simp)

/-- Without the carriage returns before line feeds they are the same. -/
theorem lineFeeds_eq (hsame : SameLines as bs) : lineFeeds as = as ∧ lineFeeds bs = as := by
  induction hsame with
  | nil => exact ⟨rfl, rfl⟩
  | char hc _ ih => simp [lineFeeds, hc, ih]
  | both _ ih => simp [lineFeeds, ih]

theorem getLast?_ne (hsame : SameLines as bs) : bs.getLast? ≠ some '\r' := by
  induction hsame with
  | nil => simp
  | @char c as bs hc _ ih =>
      cases bs with
      | nil => simpa using hc
      | cons d rest => rwa [List.getLast?_cons_cons]
  | @both as bs _ ih =>
      cases bs with
      | nil => simp
      | cons d rest => rwa [List.getLast?_cons_cons, List.getLast?_cons_cons]

section Splitting

variable {p : Char → Bool} (hp : p '\r' = p '\n')
include hp

theorem all (hsame : SameLines as bs) : as.all p = bs.all p := by
  induction hsame with
  | nil => rfl
  | char _ _ ih => simp [ih]
  | both _ ih => simp [ih, hp]

theorem dropWhile (hsame : SameLines as bs) : SameLines (as.dropWhile p) (bs.dropWhile p) := by
  induction hsame with
  | nil => exact .nil
  | char hc hrest ih =>
      simp only [List.dropWhile_cons]
      split
      · exact ih
      · exact .char hc hrest
  | both hrest ih =>
      simp only [List.dropWhile_cons, hp]
      split
      · exact ih
      · exact .both hrest

theorem dropTailWhile (hsame : SameLines as bs) :
    SameLines (Text.dropTailWhile p as) (Text.dropTailWhile p bs) := by
  induction hsame with
  | nil => exact .nil
  | @char c as bs hc _ ih =>
      rw [dropTailWhile_cons, dropTailWhile_cons]
      simp only [ih.eq_nil_iff]
      split_ifs
      · exact .nil
      · exact .char hc .nil
      · exact .char hc ih
  | @both as bs _ ih =>
      rw [dropTailWhile_cons, dropTailWhile_cons, dropTailWhile_cons, hp]
      simp only [ih.eq_nil_iff]
      by_cases hbs : Text.dropTailWhile p bs = []
      · simp only [if_pos hbs]
        by_cases hnewline : p '\n' = true
        · simp only [if_pos hnewline]
          exact .nil
        · simp only [if_neg hnewline, List.cons_ne_nil, if_false]
          exact .both .nil
      · simp only [if_neg hbs, List.cons_ne_nil, if_false]
        exact .both ih

/-- What stands before the first line feed is the same. -/
theorem takeWhile (hnewline : p '\n' = false) (hsame : SameLines as bs) :
    as.takeWhile p = bs.takeWhile p := by
  induction hsame with
  | nil => rfl
  | char _ _ ih => simp [List.takeWhile_cons, ih]
  | both _ _ => simp [hp, hnewline]

theorem splitAtEach (hnewline : p '\n' = false) (hsame : SameLines as bs) :
    List.Forall₂ SameLines (Text.splitAtEach p as) (Text.splitAtEach p bs) := by
  induction hsame with
  | nil => exact .cons .nil .nil
  | @char c as bs hc _ ih =>
      simp only [Text.splitAtEach]
      split
      · exact .cons .nil ih
      · generalize Text.splitAtEach p as = pieces, Text.splitAtEach p bs = pieces' at ih
        cases ih with
        | nil => exact .cons (.char hc .nil) .nil
        | cons hpiece hpieces => exact .cons (.char hc hpiece) hpieces
  | @both as bs _ ih =>
      simp only [Text.splitAtEach, hp, hnewline, Bool.false_eq_true, if_false]
      generalize Text.splitAtEach p as = pieces, Text.splitAtEach p bs = pieces' at ih
      cases ih with
      | nil => exact .cons (.both .nil) .nil
      | cons hpiece hpieces => exact .cons (.both hpiece) hpieces

end Splitting

end SameLines

/-! ## What links and embeds ask of a text -/

variable {a b : String}

theorem isBlank_carriageReturn : isBlank '\r' = isBlank '\n' := by decide

theorem sameLines_trimStart (hsame : SameLines a.toList b.toList) :
    SameLines (trimStart a).toList (trimStart b).toList := by
  simpa [trimStart] using hsame.dropWhile isBlank_carriageReturn

theorem sameLines_trimEnd (hsame : SameLines a.toList b.toList) :
    SameLines (trimEnd a).toList (trimEnd b).toList := by
  simpa [trimEnd] using hsame.dropTailWhile isBlank_carriageReturn

theorem sameLines_trim (hsame : SameLines a.toList b.toList) :
    SameLines (trim a).toList (trim b).toList := sameLines_trimEnd (sameLines_trimStart hsame)

theorem sameLines_isEmpty (hsame : SameLines a.toList b.toList) : a.isEmpty = b.isEmpty := by
  rw [Bool.eq_iff_iff, String.isEmpty_iff, String.isEmpty_iff, ← String.toList_eq_nil_iff,
    ← String.toList_eq_nil_iff, hsame.eq_nil_iff]

/-- A text is the same up to a separator that ends no later than its first line. -/
theorem sameLines_splitBefore {p : Char → Bool} (hreturn : p '\r' = true) (hnewline : p '\n' = true)
    (hsame : SameLines a.toList b.toList) :
    (splitBefore p a).1 = (splitBefore p b).1 ∧
      SameLines (splitBefore p a).2.toList (splitBefore p b).2.toList := by
  have hp : (!p '\r') = !p '\n' := by rw [hreturn, hnewline]
  refine ⟨congrArg String.ofList (hsame.takeWhile (p := (!p ·)) hp (by simp [hnewline])), ?_⟩
  simpa [splitBefore] using hsame.dropWhile (p := (!p ·)) hp

theorem sameLines_dropLeading {c : Char} (hc : c ≠ '\r') (hc' : c ≠ '\n')
    (hsame : SameLines a.toList b.toList) :
    SameLines (dropLeading c a).toList (dropLeading c b).toList := by
  unfold dropLeading
  generalize ha : a.toList = as, hb : b.toList = bs at hsame
  cases hsame with
  | nil => simpa [ha, hb] using SameLines.nil
  | @char d as bs hd hrest =>
      dsimp only
      split_ifs
      · simpa using hrest
      · rw [ha, hb]
        exact .char hd hrest
  | both hrest =>
      dsimp only
      rw [if_neg (Ne.symm hc'), if_neg (Ne.symm hc), ha, hb]
      exact .both hrest

end Text

namespace Link

theorem sameLines_targetAndLabel {a b : String} (hsame : Text.SameLines a.toList b.toList) :
    Text.SameLines (targetAndLabel a).1.toList (targetAndLabel b).1.toList ∧
      Text.SameLines (targetAndLabel a).2.toList (targetAndLabel b).2.toList := by
  have htrim := Text.sameLines_trim hsame
  obtain ⟨htarget, hrest⟩ := Text.sameLines_splitBefore (p := Text.isBlank) (by decide) (by decide) htrim
  have hlabel := Text.sameLines_trim hrest
  unfold targetAndLabel
  dsimp only
  rw [Text.sameLines_isEmpty hlabel, ← htarget]
  split
  · exact ⟨htrim, htrim⟩
  · refine ⟨.refl fun hmem => ?_, hlabel⟩
    rw [Text.splitBefore, String.toList_ofList] at hmem
    have hblank := List.all_eq_true.mp List.all_takeWhile _ hmem
    exact absurd hblank (by decide)

end Link

namespace Embed

variable {a b : String}

theorem parseWidth?_of_newline (hnewline : '\n' ∈ a.toList) : parseWidth? a = none := by
  have hdigits : '\n' ∈ (Text.dropLeading '+' a).toList := by
    unfold Text.dropLeading
    split
    next hnil =>
      rw [hnil] at hnewline
      cases hnewline
    next d rest hcons =>
      rw [hcons] at hnewline
      split_ifs with hplus
      · simpa [hplus] using hnewline
      · rwa [hcons]
  unfold parseWidth?
  rw [if_neg]
  rintro ⟨-, hall, -⟩
  exact absurd (List.all_eq_true.mp hall _ hdigits) (by decide)

theorem eqIgnoringAsciiCase_of_newline (hnewline : '\n' ∈ a.toList) {word : String}
    (hword : '\n' ∉ word.toList.map Char.toLower) : Text.eqIgnoringAsciiCase a word = false := by
  unfold Text.eqIgnoringAsciiCase Text.lowerAscii
  rw [beq_eq_false_iff_ne]
  intro heq
  refine hword ?_
  rw [← String.ofList_injective heq]
  exact List.mem_map.mpr ⟨'\n', hnewline, by decide⟩

/-- Embeds that say the same but for the line ends in their captions. -/
structure SameLines (embed other : Embed) : Prop where
  name : embed.name = other.name
  width : embed.width = other.width
  align : embed.align = other.align
  caption : Option.Rel (fun a b => Text.SameLines a.toList b.toList) embed.caption other.caption

/-- An argument over several lines is a caption. -/
theorem SameLines.withArgument {embed other : Embed} (hembed : embed.SameLines other)
    (hsame : Text.SameLines a.toList b.toList) :
    (embed.withArgument a).SameLines (other.withArgument b) := by
  rcases hsame.eq_or_mem with heq | ⟨ha, hb⟩
  · obtain rfl := String.toList_injective heq
    unfold Embed.withArgument
    split
    · exact { hembed with width := rfl }
    · split_ifs
      · exact { hembed with align := rfl }
      · exact { hembed with align := rfl }
      · exact { hembed with caption := .some hsame }
  · have hleft : '\n' ∉ "left".toList.map Char.toLower := by decide
    have hright : '\n' ∉ "right".toList.map Char.toLower := by decide
    have hcaption : ∀ (embed : Embed) {a : String}, '\n' ∈ a.toList →
        embed.withArgument a = { embed with caption := some a } := by
      intro embed a hnewline
      unfold Embed.withArgument
      rw [parseWidth?_of_newline hnewline]
      simp [eqIgnoringAsciiCase_of_newline hnewline hleft,
        eqIgnoringAsciiCase_of_newline hnewline hright]
    rw [hcaption embed ha, hcaption other hb]
    exact { hembed with caption := .some hsame }

theorem sameLines_arguments (hsame : Text.SameLines a.toList b.toList) :
    List.Forall₂ (fun a b => Text.SameLines a.toList b.toList) (arguments a) (arguments b) := by
  have hpieces := (Text.sameLines_dropLeading (c := '|') (by decide) (by decide)
    (Text.sameLines_trimStart hsame)).splitAtEach (p := (· == '|')) (by decide) (by decide)
  unfold arguments Text.splitOnChar
  generalize Text.splitAtEach (· == '|') (Text.dropLeading '|' (Text.trimStart a)).toList = pieces,
    Text.splitAtEach (· == '|') (Text.dropLeading '|' (Text.trimStart b)).toList = pieces' at hpieces
  induction hpieces with
  | nil => exact .nil
  | cons hpiece _ ih =>
      have htrim := Text.sameLines_trim (a := .ofList _) (b := .ofList _) (by simpa using hpiece)
      simp only [List.map_cons, List.filter_cons, Text.sameLines_isEmpty htrim]
      split
      · exact .cons htrim ih
      · exact ih

theorem sameLines_parse (hsame : Text.SameLines a.toList b.toList) :
    (parse a).SameLines (parse b) := by
  obtain ⟨hname, hrest⟩ := Text.sameLines_splitBefore (p := fun c => c == '|' || Text.isBlank c)
    (by decide) (by decide) (Text.sameLines_trim hsame)
  have hfold : ∀ {first second : List String} {embed other : Embed},
      List.Forall₂ (fun a b => Text.SameLines a.toList b.toList) first second →
      embed.SameLines other →
      (first.foldl withArgument embed).SameLines (second.foldl withArgument other) := by
    intro first second embed other hlists
    induction hlists generalizing embed other with
    | nil => exact id
    | cons hhead _ ih => exact fun hembed => ih (hembed.withArgument hhead)
  unfold parse
  dsimp only
  rw [← hname]
  exact hfold (sameLines_arguments hrest) ⟨rfl, rfl, rfl, .none⟩

end Embed

end PageMarkup
