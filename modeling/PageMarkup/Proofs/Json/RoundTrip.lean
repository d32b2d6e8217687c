import PageMarkup.Json.Parser
import PageMarkup.Proofs.Json.Strings

/-! # What is written is read back

The text of a value is cut into the tokens of the value, and the tokens are read as the value.
Both are said of a value with something after it: of a number this must not go on with a
character of a number, and nothing else matters. The fuel of both readers is a bound on what
they have to look at.
-/

namespace PageMarkup

namespace Json

/-- Values whose text is their own: their numbers are numbers, and all they hold is text. -/
inductive WellFormed : Json → Prop
  | null : WellFormed .null
  | bool (value : Bool) : WellFormed (.bool value)
  | number {numeral : String} (hnumeral : isNumeral numeral.toList = true) :
      WellFormed (.number numeral)
  | string (text : String) : WellFormed (.string text)
  | array {elements : List Json} (helements : ∀ element ∈ elements, WellFormed element) :
      WellFormed (.array elements)
  | object {members : List (String × Json)}
      (hmembers : ∀ member ∈ members, WellFormed member.2) : WellFormed (.object members)

mutual

/-- The tokens of a value. -/
def tokens : Json → List Token
  | .null | .illFormed => [.null]
  | .bool value => [.bool value]
  | .number numeral => [.number numeral]
  | .string text => [.string (some text)]
  | .array elements => .openBracket :: (elementTokens elements ++ [.closeBracket])
  | .object members => .openBrace :: (memberTokens members ++ [.closeBrace])

/-- The tokens of elements with commas between them. -/
def elementTokens : List Json → List Token
  | [] => []
  | [element] => element.tokens
  | element :: next :: rest => element.tokens ++ .comma :: elementTokens (next :: rest)

/-- The tokens of members with commas between them. -/
def memberTokens : List (String × Json) → List Token
  | [] => []
  | [(key, value)] => .string (some key) :: .colon :: value.tokens
  | (key, value) :: next :: rest =>
    .string (some key) :: .colon :: (value.tokens ++ .comma :: memberTokens (next :: rest))

end

/-! ## Numbers -/

theorem isNumeralChar_of_isDigits {cs : List Char} (hcs : isDigits cs = true) :
    ∀ c ∈ cs, isNumeralChar c = true := by
  intro c hc
  have hdigit : c.isDigit = true :=
    List.all_eq_true.mp (Bool.and_eq_true_iff.mp hcs).2 c hc
  simp [isNumeralChar, hdigit]

theorem isDigits_of_isIntegral {cs : List Char} (hcs : isIntegral cs = true) :
    isDigits cs = true := by
  revert hcs
  fun_cases isIntegral cs with
  | case1 => decide
  | case2 => simp
  | case3 => exact id

theorem isNumeralChar_of_isExponent {cs : List Char} (hcs : isExponent cs = true) :
    ∀ c ∈ cs, isNumeralChar c = true := by
  revert hcs
  fun_cases isExponent cs with
  | case1 digits =>
      exact fun hdigits => List.forall_mem_cons.mpr ⟨by decide, isNumeralChar_of_isDigits hdigits⟩
  | case2 digits =>
      exact fun hdigits => List.forall_mem_cons.mpr ⟨by decide, isNumeralChar_of_isDigits hdigits⟩
  | case3 => exact isNumeralChar_of_isDigits

theorem forall_mem_of_takeWhile_of_dropWhile {α : Type} {holds : α → Prop} {p : α → Bool}
    {xs : List α} (htake : ∀ x ∈ xs.takeWhile p, holds x)
    (hdrop : ∀ x ∈ xs.dropWhile p, holds x) : ∀ x ∈ xs, holds x := by
  have hforall := List.forall_mem_append.mpr ⟨htake, hdrop⟩
  rwa [List.takeWhile_append_dropWhile] at hforall

theorem isNumeralChar_of_isFractionAndExponent {cs : List Char}
    (hcs : isFractionAndExponent cs = true) : ∀ c ∈ cs, isNumeralChar c = true := by
  obtain ⟨hfraction, hexponent⟩ := Bool.and_eq_true_iff.mp hcs
  refine forall_mem_of_takeWhile_of_dropWhile (p := fun c => !(c == 'e' || c == 'E')) ?_ ?_
  · revert hfraction
    split
    next heq =>
      rw [heq]
      simp
    next digits heq =>
      rw [heq]
      exact fun hdigits =>
        List.forall_mem_cons.mpr ⟨by decide, isNumeralChar_of_isDigits hdigits⟩
    next => simp
  · revert hexponent
    have hmark := List.head?_dropWhile_not (fun c => !(c == 'e' || c == 'E')) cs
    split
    next heq =>
      rw [heq]
      simp
    next mark exponent heq =>
      rw [heq] at hmark ⊢
      have hmark : isNumeralChar mark = true := by
        simp [isNumeralChar] at hmark ⊢
        grind
      exact fun hexponent =>
        List.forall_mem_cons.mpr ⟨hmark, isNumeralChar_of_isExponent hexponent⟩

/-- A number begins with a character of a number and goes on with such. -/
theorem isNumeralChar_of_isNumeral {cs : List Char} (hcs : isNumeral cs = true) :
    (∀ c ∈ cs, isNumeralChar c = true) ∧ cs ≠ [] := by
  have hunsigned : ∀ {unsigned : List Char},
      (isIntegral (unsigned.takeWhile Char.isDigit)
        && isFractionAndExponent (unsigned.dropWhile Char.isDigit)) = true →
      ∀ c ∈ unsigned, isNumeralChar c = true := by
    intro unsigned h
    obtain ⟨hintegral, hrest⟩ := Bool.and_eq_true_iff.mp h
    exact forall_mem_of_takeWhile_of_dropWhile
      (isNumeralChar_of_isDigits (isDigits_of_isIntegral hintegral))
      (isNumeralChar_of_isFractionAndExponent hrest)
  refine ⟨?_, by rintro rfl; exact absurd hcs (by decide)⟩
  revert hcs
  rw [isNumeral.eq_def]
  split
  next rest =>
    exact fun h => List.forall_mem_cons.mpr ⟨by decide, hunsigned h⟩
  next => exact hunsigned

/-! ## From characters to tokens -/

/-- With enough fuel the characters are cut into the tokens. -/
def Lexes (cs : List Char) (tokens : List Token) : Prop :=
  ∀ fuel, cs.length ≤ fuel → tokensWithin fuel cs = some tokens

/-- A number that ends here is at its end. -/
def Delimited (rest : List Char) : Prop := ∀ c ∈ rest.head?, isNumeralChar c = false

theorem Lexes.nil : Lexes [] [] := fun fuel _ => by cases fuel <;> rfl

theorem Lexes.cons {c : Char} (cs : List Char) {rest : List Char} {token : Token} {tokens : List Token}
    (hc : isSpace c = false) (htoken : token? (c :: cs ++ rest) = some (token, rest))
    (hrest : Lexes rest tokens) : Lexes (c :: cs ++ rest) (token :: tokens) := by
  intro fuel hfuel
  obtain _ | fuel := fuel
  · simp at hfuel
  have hfuel' : rest.length ≤ fuel := by simp at hfuel; omega
  simp only [List.cons_append] at htoken ⊢
  simp [tokensWithin, hc, htoken, hrest fuel hfuel']

theorem takeWhile_isNumeralChar {cs rest : List Char} (hcs : ∀ c ∈ cs, isNumeralChar c = true)
    (hrest : Delimited rest) :
    (cs ++ rest).takeWhile isNumeralChar = cs ∧ (cs ++ rest).dropWhile isNumeralChar = rest := by
  rw [List.takeWhile_append_of_pos hcs, List.dropWhile_append_of_pos hcs]
  cases rest with
  | nil => simp
  | cons c rest => simp [hrest c (by simp)]

/-- No character that begins another token can occur in a number. -/
theorem token?_number {c : Char} {cs rest : List Char} (hcs : isNumeral (c :: cs) = true)
    (hrest : Delimited rest) :
    token? (c :: cs ++ rest) = some (.number (String.ofList (c :: cs)), rest) := by
  have hchars := (isNumeralChar_of_isNumeral hcs).1
  have hother : ∀ other, isNumeralChar other = false → c ≠ other := by
    rintro other hother rfl
    exact absurd (hchars c List.mem_cons_self) (Bool.eq_false_iff.mp hother)
  obtain ⟨htake, hdrop⟩ := takeWhile_isNumeralChar hchars hrest
  rw [List.cons_append] at htake hdrop ⊢
  rw [token?, htake, hdrop, if_pos hcs]
  all_goals exact fun _ heq => hother _ (by decide) (List.cons.inj heq).1

theorem Delimited.cons {c : Char} (hc : isNumeralChar c = false) (rest : List Char) :
    Delimited (c :: rest) := by simpa [Delimited] using hc

/-- A punctuation mark is a token of its own. -/
theorem Lexes.mark {c : Char} {rest : List Char} {token : Token} {tokens : List Token}
    (hc : isSpace c = false) (htoken : token? (c :: rest) = some (token, rest))
    (hrest : Lexes rest tokens) : Lexes (c :: rest) (token :: tokens) :=
  Lexes.cons [] hc htoken hrest

theorem Lexes.string (text : String) {rest : List Char} {tokens : List Token}
    (hrest : Lexes rest tokens) :
    Lexes (renderString text ++ rest) (.string (some text) :: tokens) :=
  Lexes.cons _ (by decide) (token?_renderString text rest) hrest

theorem not_isSpace_of_isNumeralChar {c : Char} (hc : isNumeralChar c = true) :
    isSpace c = false := by
  have hother : ∀ other, isNumeralChar other = false → (c == other) = false := by
    rintro other hother
    rw [beq_eq_false_iff_ne]
    rintro rfl
    exact absurd hc (Bool.eq_false_iff.mp hother)
  rw [isSpace, hother _ (by decide), hother _ (by decide), hother _ (by decide),
    hother _ (by decide)]
  rfl

/-- The text of the value is cut into its tokens, and what follows is cut as it is alone. -/
def LexesAsTokens (value : Json) : Prop :=
  ∀ {rest : List Char} {after : List Token}, Delimited rest → Lexes rest after →
    Lexes (value.renderChars ++ rest) (value.tokens ++ after)

theorem lexes_renderElements {elements : List Json}
    (helements : ∀ element ∈ elements, element.LexesAsTokens) {rest : List Char}
    {after : List Token} (hend : Delimited rest) (hrest : Lexes rest after) :
    Lexes (renderElements elements ++ rest) (elementTokens elements ++ after) := by
  induction elements with
  | nil => exact hrest
  | cons element elements ih =>
      obtain ⟨helement, hothers⟩ := List.forall_mem_cons.mp helements
      cases elements with
      | nil => exact helement hend hrest
      | cons next elements =>
          simp only [renderElements, elementTokens, List.append_assoc, List.cons_append]
          exact helement (.cons rfl _) (.mark rfl rfl (ih hothers))

theorem lexes_renderMembers {members : List (String × Json)}
    (hmembers : ∀ member ∈ members, member.2.LexesAsTokens) {rest : List Char}
    {after : List Token} (hend : Delimited rest) (hrest : Lexes rest after) :
    Lexes (renderMembers members ++ rest) (memberTokens members ++ after) := by
  induction members with
  | nil => exact hrest
  | cons member members ih =>
      obtain ⟨hmember, hothers⟩ := List.forall_mem_cons.mp hmembers
      cases members with
      | nil =>
          simp only [renderMembers, memberTokens, List.append_assoc, List.cons_append]
          exact .string _ (.mark rfl rfl (hmember hend hrest))
      | cons next members =>
          simp only [renderMembers, memberTokens, List.append_assoc, List.cons_append]
          exact .string _ (.mark rfl rfl (hmember (.cons rfl _) (.mark rfl rfl (ih hothers))))

theorem WellFormed.lexesAsTokens {value : Json} (hvalue : value.WellFormed) :
    value.LexesAsTokens := by
  induction hvalue with
  | null => exact fun _ hrest => Lexes.cons "ull".toList rfl rfl hrest
  | bool value =>
      cases value with
      | true => exact fun _ hrest => Lexes.cons "rue".toList rfl rfl hrest
      | false => exact fun _ hrest => Lexes.cons "alse".toList rfl rfl hrest
  | @number numeral hnumeral =>
      -- A number has no closing mark, so it is what follows that has to end it.
      intro rest after hend hrest
      have hcharacters := isNumeralChar_of_isNumeral hnumeral
      obtain ⟨c, cs, hcs⟩ := List.exists_cons_of_ne_nil hcharacters.2
      rw [hcs] at hnumeral
      have hc : isSpace c = false :=
        not_isSpace_of_isNumeralChar (hcharacters.1 c (hcs ▸ List.mem_cons_self))
      have htoken := token?_number hnumeral hend
      rw [← hcs, String.ofList_toList, hcs] at htoken
      have hwritten : (Json.number numeral).renderChars = c :: cs := hcs
      rw [hwritten]
      exact .cons cs hc htoken hrest
  | string text => exact fun _ hrest => .string text hrest
  | @array elements _ ih =>
      intro rest after hend hrest
      have hwritten : (Json.array elements).renderChars =
          '[' :: (renderElements elements ++ [']']) := rfl
      simp only [hwritten, tokens, List.append_assoc, List.cons_append]
      exact .mark rfl rfl (lexes_renderElements ih (.cons rfl _) (.mark rfl rfl hrest))
  | @object members _ ih =>
      intro rest after hend hrest
      have hwritten : (Json.object members).renderChars =
          '\x7b' :: (renderMembers members ++ ['\x7d']) := rfl
      simp only [hwritten, tokens, List.append_assoc, List.cons_append]
      exact .mark rfl rfl (lexes_renderMembers ih (.cons rfl _) (.mark rfl rfl hrest))

/-! ## From tokens to values -/

/-- The tokens of the value are read as the value, and what follows is left. -/
def ReadsBack (value : Json) : Prop :=
  ∀ (fuel : Nat) (rest : List Token), 2 * value.tokens.length ≤ fuel →
    value? fuel (value.tokens ++ rest) = some (value, rest)

theorem elementTokens_head?_ne_closeBracket (element : Json) (elements : List Json)
    (rest : List Token) :
    (elementTokens (element :: elements) ++ rest).head? ≠ some .closeBracket := by
  cases elements <;> cases element <;> simp [elementTokens, tokens]

/-- An array that does not end at once has elements. -/
theorem value?_openBracket (fuel : Nat) {rest : List Token}
    (hrest : rest.head? ≠ some .closeBracket) :
    value? (fuel + 1) (.openBracket :: rest) =
      (elements? fuel rest).map fun (elements, rest) => (.array elements, rest) := by
  rw [value?]
  rintro _ rfl
  exact hrest rfl

theorem value?_openBrace (fuel : Nat) (member : String × Json)
    (members : List (String × Json)) (rest : List Token) :
    value? (fuel + 1) (.openBrace :: (memberTokens (member :: members) ++ rest)) =
      (members? fuel (memberTokens (member :: members) ++ rest)).map
        fun (members, rest) => (ofMembers members, rest) := by
  cases members <;> rfl

theorem elements?_elementTokens {elements : List Json}
    (helements : ∀ element ∈ elements, element.ReadsBack) (hsome : elements ≠ [])
    {fuel : Nat} {rest : List Token} (hfuel : 2 * (elementTokens elements).length < fuel) :
    elements? fuel (elementTokens elements ++ .closeBracket :: rest) = some (elements, rest) := by
  induction elements generalizing fuel with
  | nil => exact absurd rfl hsome
  | cons element elements ih =>
      obtain ⟨helement, hothers⟩ := List.forall_mem_cons.mp helements
      obtain _ | fuel := fuel
      · exact absurd hfuel (Nat.not_lt_zero _)
      cases elements with
      | nil =>
          rw [elementTokens] at hfuel ⊢
          rw [elements?, helement _ _ (by omega)]
          rfl
      | cons next elements =>
          simp only [elementTokens, List.length_append, List.length_cons] at hfuel
          have hrest : elements? fuel (elementTokens (next :: elements) ++ .closeBracket :: rest) =
              some (next :: elements, rest) := ih hothers (List.cons_ne_nil _ _) (by omega)
          rw [elementTokens, List.append_assoc, elements?, helement _ _ (by omega)]
          simp [hrest]

theorem members?_memberTokens {members : List (String × Json)}
    (hmembers : ∀ member ∈ members, member.2.ReadsBack) (hsome : members ≠ [])
    {fuel : Nat} {rest : List Token} (hfuel : 2 * (memberTokens members).length < fuel) :
    members? fuel (memberTokens members ++ .closeBrace :: rest) =
      some (members.map fun (key, value) => (some key, value), rest) := by
  induction members generalizing fuel with
  | nil => exact absurd rfl hsome
  | cons member members ih =>
      obtain ⟨hmember, hothers⟩ := List.forall_mem_cons.mp hmembers
      obtain _ | fuel := fuel
      · exact absurd hfuel (Nat.not_lt_zero _)
      cases members with
      | nil =>
          simp only [memberTokens, List.length_cons] at hfuel
          simp only [memberTokens, List.cons_append]
          rw [members?, hmember _ _ (by omega)]
          rfl
      | cons next members =>
          simp only [memberTokens, List.length_append, List.length_cons] at hfuel
          have hrest : members? fuel (memberTokens (next :: members) ++ .closeBrace :: rest) =
              some ((next :: members).map fun (key, value) => (some key, value), rest) :=
            ih hothers (List.cons_ne_nil _ _) (by omega)
          simp only [memberTokens, List.cons_append, List.append_assoc]
          rw [members?, hmember _ _ (by omega)]
          simp [hrest]

theorem ofMembers_map_some (members : List (String × Json)) :
    ofMembers (members.map fun (key, value) => (some key, value)) = .object members := by
  have hkeys : ∀ {f : Option String × Json → Option (String × Json)},
      (∀ key value, f (some key, value) = some (key, value)) →
        (members.map fun (key, value) => (some key, value)).mapM f = some members := by
    intro f hf
    have hpure : (fun member => f (some member.1, member.2)) = pure := by
      funext member
      exact hf member.1 member.2
    rw [List.mapM_map]
    exact (congrArg (members.mapM ·) hpure).trans
      (List.mapM_pure.trans (congrArg some (List.map_id members)))
  rw [ofMembers, hkeys fun _ _ => rfl]

theorem ReadsBack.of_succ {value : Json} (hsome : value.tokens ≠ [])
    (hread : ∀ (fuel : Nat) (rest : List Token), 2 * value.tokens.length ≤ fuel + 1 →
      value? (fuel + 1) (value.tokens ++ rest) = some (value, rest)) : value.ReadsBack := by
  intro fuel rest hfuel
  have hlength := List.length_pos_iff.mpr hsome
  obtain _ | fuel := fuel
  · omega
  · exact hread fuel rest hfuel

theorem WellFormed.readsBack {value : Json} (hvalue : value.WellFormed) : value.ReadsBack := by
  induction hvalue with
  | null => exact .of_succ (by simp [tokens]) fun _ _ _ => rfl
  | bool value => exact .of_succ (by simp [tokens]) fun _ _ _ => rfl
  | number hnumeral => exact .of_succ (by simp [tokens]) fun _ _ _ => rfl
  | string text => exact .of_succ (by simp [tokens]) fun _ _ _ => rfl
  | @array elements _ ih =>
      refine .of_succ (by simp [tokens]) fun fuel rest hfuel => ?_
      cases elements with
      | nil => rfl
      | cons element elements =>
          simp only [tokens, List.length_cons, List.length_append] at hfuel
          rw [tokens, List.cons_append, List.append_assoc,
            value?_openBracket fuel (elementTokens_head?_ne_closeBracket element elements _),
            List.singleton_append, elements?_elementTokens ih (List.cons_ne_nil _ _) (by omega)]
          rfl
  | @object members _ ih =>
      refine .of_succ (by simp [tokens]) fun fuel rest hfuel => ?_
      cases members with
      | nil => rfl
      | cons member members =>
          simp only [tokens, List.length_cons, List.length_append] at hfuel
          rw [tokens, List.cons_append, List.append_assoc, value?_openBrace, List.singleton_append,
            members?_memberTokens ih (List.cons_ne_nil _ _) (by omega)]
          exact congrArg (fun value => some (value, rest)) (ofMembers_map_some (member :: members))

/-- A well-formed value is what its text is read as. -/
theorem parse?_render {value : Json} (hvalue : value.WellFormed) :
    parse? value.render = some value := by
  have htokens : tokens? value.render = some value.tokens := by
    have hlexes : Lexes (value.renderChars ++ []) (value.tokens ++ []) :=
      hvalue.lexesAsTokens (by simp [Delimited]) Lexes.nil
    simp only [List.append_nil] at hlexes
    rw [tokens?, render, String.toList_ofList, hlexes _ (Nat.le_refl _)]
  have hvalue : value? (2 * value.tokens.length + 1) value.tokens = some (value, []) := by
    have h := hvalue.readsBack (2 * value.tokens.length + 1) [] (by omega)
    rwa [List.append_nil] at h
  rw [parse?, htokens, Option.bind_eq_bind, Option.bind_some, hvalue]
  rfl

end Json

end PageMarkup
