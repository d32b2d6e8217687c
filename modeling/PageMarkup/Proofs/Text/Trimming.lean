import Mathlib.Data.List.DropRight
import PageMarkup.Text.Blank

/-! # Cutting and trimming texts

Trimming at the start and at the end of a text are independent of each other. A text is cut
at a separator into the same pieces, up to white space around them, whether or not it was
trimmed before, as long as the separator itself is not white space.
-/

namespace PageMarkup.Text

section Lists

variable {α : Type} {p q : α → Bool}

theorem takeWhile_append_of_head {rest : List α} (hrest : ∀ c ∈ rest.head?, p c = false)
    (first : List α) : (first ++ rest).takeWhile p = first.takeWhile p := by
  induction first with
  | nil =>
      cases rest with
      | nil => rfl
      | cons c rest => simp [hrest c rfl]
  | cons c first ih => rw [List.cons_append, List.takeWhile_cons, List.takeWhile_cons, ih]

/-- The front of a list that is cut after the members with a property. -/
theorem takeWhile_of_cut {α : Type} {p : α → Bool} {front kept back : List α}
    (hfront : ∀ x ∈ front, p x) (hne : kept ≠ []) (hfirst : ∀ x ∈ kept.head?, ¬ p x) :
    (front ++ kept ++ back).takeWhile p = front := by
  have hhead : ∀ x ∈ (kept ++ back).head?, p x = false := by
    cases kept with
    | nil => exact absurd rfl hne
    | cons first rest => exact fun x hx => Bool.eq_false_iff.mpr (hfirst x hx)
  rw [List.append_assoc, takeWhile_append_of_head hhead, List.takeWhile_eq_self_iff.mpr hfront]

theorem dropWhile_append_of_head {rest : List α} (hrest : ∀ c ∈ rest.head?, p c = false)
    (first : List α) : (first ++ rest).dropWhile p = first.dropWhile p ++ rest := by
  have hwhole : (first ++ rest).takeWhile p ++ (first ++ rest).dropWhile p =
      (first ++ rest).takeWhile p ++ (first.dropWhile p ++ rest) := by
    rw [List.takeWhile_append_dropWhile, takeWhile_append_of_head hrest, ← List.append_assoc,
      List.takeWhile_append_dropWhile]
  exact List.append_cancel_left hwhole

/-! ## The end of a list -/

theorem dropTailWhile_cons (c : α) (rest : List α) :
    dropTailWhile p (c :: rest) =
      if dropTailWhile p rest = [] then (if p c then [] else [c])
      else c :: dropTailWhile p rest := by
  unfold dropTailWhile
  rw [List.reverse_cons, List.dropWhile_append]
  cases hrest : rest.reverse.dropWhile p with
  | nil => by_cases hc : p c <;> simp [hc]
  | cons d others => simp

theorem dropTailWhile_cons_of_neg {c : α} (hc : p c = false) (rest : List α) :
    dropTailWhile p (c :: rest) = c :: dropTailWhile p rest := by
  rw [dropTailWhile_cons]
  split
  next hnil => rw [hnil, if_neg (by rw [hc]; decide)]
  next => rfl

theorem dropTailWhile_append {first : List α} (hfirst : ∀ c ∈ first, p c = false)
    (rest : List α) : dropTailWhile p (first ++ rest) = first ++ dropTailWhile p rest := by
  induction first with
  | nil => rfl
  | cons c first ih =>
      obtain ⟨hc, hfirst⟩ := List.forall_mem_cons.mp hfirst
      rw [List.cons_append, dropTailWhile_cons_of_neg hc, ih hfirst, List.cons_append]

theorem dropTailWhile_idem (list : List α) :
    dropTailWhile p (dropTailWhile p list) = dropTailWhile p list := by
  rw [dropTailWhile, dropTailWhile, List.reverse_reverse, List.dropWhile_idempotent]

/-- What is left of a list starts as the list does. -/
theorem head?_dropTailWhile {list : List α} {c : α} (hc : c ∈ (dropTailWhile p list).head?) :
    c ∈ list.head? := by
  cases list with
  | nil => exact hc
  | cons d rest =>
      rw [dropTailWhile_cons] at hc
      split_ifs at hc
      · cases hc
      · exact hc
      · exact hc

/-- A list is cut at its two ends in any order. -/
theorem dropWhile_dropTailWhile (list : List α) :
    (dropTailWhile p list).dropWhile p = dropTailWhile p (list.dropWhile p) := by
  induction list with
  | nil => rfl
  | cons c rest ih =>
      cases hc : p c with
      | true =>
          rw [List.dropWhile_cons_of_pos hc, ← ih, dropTailWhile_cons]
          split
          next hnil => simp [hnil]
          next => rw [List.dropWhile_cons_of_pos hc]
      | false =>
          have hnot : ¬p c = true := by rw [hc]; decide
          rw [List.dropWhile_cons_of_neg hnot, dropTailWhile_cons_of_neg hc,
            List.dropWhile_cons_of_neg hnot]

/-! ## Pieces -/

theorem splitAtEach_of_forall {list : List α} (hlist : ∀ c ∈ list, p c = false) :
    splitAtEach p list = [list] := by
  induction list with
  | nil => rfl
  | cons c rest ih =>
      obtain ⟨hc, hrest⟩ := List.forall_mem_cons.mp hlist
      rw [splitAtEach, if_neg (by rw [hc]; decide), ih hrest]

theorem splitAtEach_append {first : List α} (hfirst : ∀ c ∈ first, p c = false) {separator : α}
    (hseparator : p separator = true) (rest : List α) :
    splitAtEach p (first ++ separator :: rest) = first :: splitAtEach p rest := by
  induction first with
  | nil => rw [List.nil_append, splitAtEach, if_pos hseparator]
  | cons c first ih =>
      obtain ⟨hc, hfirst⟩ := List.forall_mem_cons.mp hfirst
      rw [List.cons_append, splitAtEach, if_neg (by rw [hc]; decide), ih hfirst]

theorem splitAtEach_ne_nil (list : List α) : splitAtEach p list ≠ [] := by
  cases list with
  | nil => exact List.cons_ne_nil _ _
  | cons c rest =>
      rw [splitAtEach]
      split
      next => exact List.cons_ne_nil _ _
      next => split <;> exact List.cons_ne_nil _ _

theorem splitAtEach_cons_of_neg {c : α} (hc : p c = false) (rest : List α) :
    ∃ piece pieces, splitAtEach p rest = piece :: pieces ∧
      splitAtEach p (c :: rest) = (c :: piece) :: pieces := by
  cases hsplit : splitAtEach p rest with
  | nil => exact absurd hsplit (splitAtEach_ne_nil rest)
  | cons piece pieces =>
      refine ⟨piece, pieces, rfl, ?_⟩
      rw [splitAtEach, if_neg (by rw [hc]; decide), hsplit]

/-- A list is cut into the same pieces, up to their starts, whether or not its own start was cut
off before. -/
theorem splitAtEach_dropWhile (hp : ∀ c, p c = true → q c = false) (list : List α) :
    (splitAtEach p (list.dropWhile q)).map (List.dropWhile q) =
      (splitAtEach p list).map (List.dropWhile q) := by
  induction list with
  | nil => rfl
  | cons c rest ih =>
      rw [List.dropWhile_cons]
      split
      next hq =>
          have hc : p c = false := Bool.eq_false_iff.mpr fun hc => by simp [hp c hc] at hq
          obtain ⟨piece, pieces, hpieces, hwhole⟩ := splitAtEach_cons_of_neg hc rest
          rw [ih, hpieces, hwhole, List.map_cons, List.map_cons, List.dropWhile_cons_of_pos hq]
      next => rfl

/-- A list is cut into the same pieces, up to their ends, whether or not its own end was cut
off before. -/
theorem splitAtEach_dropTailWhile (hp : ∀ c, p c = true → q c = false) (list : List α) :
    (splitAtEach p (dropTailWhile q list)).map (dropTailWhile q) =
      (splitAtEach p list).map (dropTailWhile q) := by
  induction list with
  | nil => rfl
  | cons c rest ih =>
      cases hc : p c with
      | true =>
          rw [dropTailWhile_cons_of_neg (hp c hc), splitAtEach, splitAtEach, if_pos hc, if_pos hc,
            List.map_cons, List.map_cons, ih]
      | false =>
          -- the member goes to the first of the pieces after it, on either side
          obtain ⟨piece, pieces, hpieces, hwhole⟩ := splitAtEach_cons_of_neg hc rest
          obtain ⟨cut, cuts, hcuts, hcut⟩ := splitAtEach_cons_of_neg hc (dropTailWhile q rest)
          rw [hpieces, hcuts, List.map_cons, List.map_cons] at ih
          obtain ⟨hhead, htail⟩ := List.cons_eq_cons.mp ih
          rw [hwhole, List.map_cons, dropTailWhile_cons c piece, ← hhead, ← htail,
            ← dropTailWhile_cons, ← List.map_cons, ← hcut]
          by_cases hnil : dropTailWhile q rest = []
          · rw [dropTailWhile_cons, if_pos hnil, hnil]
            split
            next hblank => simp [splitAtEach, hc, dropTailWhile, hblank]
            next => rfl
          · rw [dropTailWhile_cons, if_neg hnil]

end Lists

/-! ## Texts -/

variable {c : Char} (text : String)

theorem trimStart_idem : trimStart (trimStart text) = trimStart text := by
  simp [trimStart, List.dropWhile_idempotent]

theorem trimEnd_idem : trimEnd (trimEnd text) = trimEnd text := by
  simp [trimEnd, dropTailWhile_idem]

theorem trimStart_trimEnd : trimStart (trimEnd text) = trimEnd (trimStart text) := by
  simp [trimStart, trimEnd, dropWhile_dropTailWhile]

theorem trim_trimStart : trim (trimStart text) = trim text := by
  rw [trim, trimStart_idem, trim]

theorem trim_trimEnd : trim (trimEnd text) = trim text := by
  rw [trim, trimStart_trimEnd, trimEnd_idem, trim]

theorem isBlankText_trimStart : isBlankText (trimStart text) = isBlankText text := by
  rw [isBlankText, isBlankText, trimStart, String.toList_ofList]
  induction text.toList with
  | nil => rfl
  | cons c rest ih =>
      rw [List.dropWhile_cons]
      split
      next hblank => rw [ih, List.all_cons, hblank, Bool.true_and]
      next => rfl

theorem isBlankText_trimEnd : isBlankText (trimEnd text) = isBlankText text := by
  have hreversed := isBlankText_trimStart (String.ofList text.toList.reverse)
  simpa [isBlankText, trimStart, trimEnd, dropTailWhile] using hreversed

theorem isEmpty_trim : (trim text).isEmpty = isBlankText text := by
  have hblank : isBlankText (trim text) = isBlankText text :=
    (isBlankText_trimEnd _).trans (isBlankText_trimStart _)
  cases hall : isBlankText text with
  | true =>
      have hstart : trimStart text = "" := by
        have hnil : text.toList.dropWhile isBlank = [] :=
          List.dropWhile_eq_nil_iff.mpr (List.all_eq_true.mp hall)
        rw [trimStart, hnil]
      rw [trim, hstart]
      rfl
  | false =>
      rw [← Bool.not_eq_true, String.isEmpty_iff]
      intro hempty
      rw [hempty, hall] at hblank
      cases hblank

section Ink

/-! ## Ink at the ends -/

/-- The text begins with a character that is not white space. -/
def BeginsWithInk (text : String) : Prop := ∃ c ∈ text.toList.head?, isBlank c = false

/-- The text ends with a character that is not white space. -/
def EndsWithInk (text : String) : Prop := ∃ c ∈ text.toList.getLast?, isBlank c = false

variable {text}

theorem not_isBlankText_of_mem (hmem : c ∈ text.toList) (hink : isBlank c = false) :
    ¬ isBlankText text := by
  intro hblank
  have hall := List.all_eq_true.mp hblank c hmem
  rw [hink] at hall
  cases hall

theorem beginsWithInk_trimStart (hink : ¬ isBlankText text) : BeginsWithInk (trimStart text) := by
  have hne : text.toList.dropWhile isBlank ≠ [] := by
    rw [Ne, List.dropWhile_eq_nil_iff]
    exact fun hall => hink (List.all_eq_true.mpr hall)
  have hhead := List.head?_dropWhile_not isBlank text.toList
  rw [BeginsWithInk, trimStart, String.toList_ofList]
  cases hrest : text.toList.dropWhile isBlank with
  | nil => exact absurd hrest hne
  | cons c rest =>
      rw [hrest] at hhead
      exact ⟨c, rfl, by simpa using hhead⟩

theorem endsWithInk_trimEnd (hink : ¬ isBlankText text) : EndsWithInk (trimEnd text) := by
  have hreversed : ¬ isBlankText (String.ofList text.toList.reverse) := by
    simpa [isBlankText] using hink
  obtain ⟨c, hc, hink⟩ := beginsWithInk_trimStart hreversed
  refine ⟨c, ?_, hink⟩
  simpa [trimStart, trimEnd, dropTailWhile] using hc

/-- The texts that begin with ink are those that trimming leaves something of and leaves alone. -/
theorem beginsWithInk_iff : BeginsWithInk text ↔ ¬ isBlankText text ∧ trimStart text = text := by
  constructor
  · rintro ⟨c, hc, hink⟩
    obtain ⟨rest, hrest⟩ := List.head?_eq_some_iff.mp hc
    refine ⟨not_isBlankText_of_mem (List.mem_of_head? hc) hink, ?_⟩
    rw [trimStart, hrest, List.dropWhile_cons_of_neg (by simp [hink]), ← hrest,
      String.ofList_toList]
  · rintro ⟨hink, htrimmed⟩
    exact htrimmed ▸ beginsWithInk_trimStart hink

theorem endsWithInk_iff : EndsWithInk text ↔ ¬ isBlankText text ∧ trimEnd text = text := by
  constructor
  · rintro ⟨c, hc, hink⟩
    obtain ⟨rest, hrest⟩ := List.getLast?_eq_some_iff.mp hc
    refine ⟨not_isBlankText_of_mem (List.mem_of_getLast? hc) hink, ?_⟩
    rw [trimEnd, hrest, dropTailWhile, List.reverse_append, List.reverse_singleton,
      List.singleton_append, List.dropWhile_cons_of_neg (by simp [hink]), List.reverse_cons,
      List.reverse_reverse, ← hrest, String.ofList_toList]
  · rintro ⟨hink, htrimmed⟩
    exact htrimmed ▸ endsWithInk_trimEnd hink

/-- Cutting white space off the end leaves the beginning. -/
theorem BeginsWithInk.trimEnd (hbegins : BeginsWithInk text) : BeginsWithInk (trimEnd text) := by
  rw [beginsWithInk_iff] at hbegins ⊢
  rw [isBlankText_trimEnd, trimStart_trimEnd, hbegins.2]
  exact ⟨hbegins.1, rfl⟩

end Ink

/-! ## Pieces at separators -/

/-- One leading separator is dropped, or there is none and the text stays. -/
theorem dropLeading_cases (c : Char) (text : String) :
    text.toList = c :: (dropLeading c text).toList ∨
      (c ∉ text.toList.head? ∧ dropLeading c text = text) := by
  unfold dropLeading
  cases htext : text.toList with
  | nil => exact .inr ⟨by simp, rfl⟩
  | cons d rest =>
      by_cases hd : d = c
      · exact .inl (by simp [hd])
      · exact .inr (by simp [hd])

/-- A text is cut where its first word ends. -/
theorem splitBefore_append {p : Char → Bool} {word rest : String}
    (hword : ∀ c ∈ word.toList, p c = false) (hrest : ∀ c ∈ rest.toList.head?, p c = true) :
    splitBefore p (word ++ rest) = (word, rest) := by
  have hhead : ∀ c ∈ rest.toList.head?, (!p c) = false := fun c hc => by rw [hrest c hc]; rfl
  have hall : ∀ c ∈ word.toList, (!p c) = true := fun c hc => by rw [hword c hc]; rfl
  have htake := takeWhile_append_of_head (p := (!p ·)) hhead word.toList
  have hdrop := dropWhile_append_of_head (p := (!p ·)) hhead word.toList
  rw [List.takeWhile_eq_self_iff.mpr hall] at htake
  rw [List.dropWhile_eq_nil_iff.mpr hall, List.nil_append] at hdrop
  rw [splitBefore, String.toList_append, htake, hdrop, String.ofList_toList, String.ofList_toList]

theorem map_trim_congr (cut : List Char → List Char) {pieces others : List (List Char)}
    (hcut : ∀ piece, trim (.ofList (cut piece)) = trim (.ofList piece))
    (hpieces : pieces.map cut = others.map cut) :
    (pieces.map String.ofList).map trim = (others.map String.ofList).map trim := by
  have htrim : trim ∘ String.ofList = (trim ∘ String.ofList) ∘ cut :=
    funext fun piece => (hcut piece).symm
  rw [List.map_map, List.map_map, htrim, ← List.map_map, hpieces, List.map_map]

theorem splitOnChar_trimStart (hc : isBlank c = false) :
    (splitOnChar c (trimStart text)).map trim = (splitOnChar c text).map trim := by
  rw [splitOnChar, splitOnChar, trimStart, String.toList_ofList]
  refine map_trim_congr (List.dropWhile isBlank) (fun piece => ?_) ?_
  · rw [← trim_trimStart (.ofList piece), trimStart, String.toList_ofList]
  · exact splitAtEach_dropWhile (fun d hd => by rw [beq_iff_eq.mp hd]; exact hc) text.toList

theorem splitOnChar_trimEnd (hc : isBlank c = false) :
    (splitOnChar c (trimEnd text)).map trim = (splitOnChar c text).map trim := by
  rw [splitOnChar, splitOnChar, trimEnd, String.toList_ofList]
  refine map_trim_congr (dropTailWhile isBlank) (fun piece => ?_) ?_
  · rw [← trim_trimEnd (.ofList piece), trimEnd, String.toList_ofList]
  · exact splitAtEach_dropTailWhile (fun d hd => by rw [beq_iff_eq.mp hd]; exact hc) text.toList

end PageMarkup.Text
