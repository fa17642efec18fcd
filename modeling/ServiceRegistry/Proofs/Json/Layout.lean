import ServiceRegistry.Proofs.Json.Tokens

/-!
# Texts of tokens

A list of tokens has many texts.  Any blanks may stand around a token, and it may be spelled in more than
one way, since a string literal may escape characters that need no escape.

* `Token.scan_append`: a token that is a whole text is still read from the front of a longer one.
* `Token.LaidOut` are the texts of a list of tokens; `Token.laidOut_chars` is the one that is written.
* `Token.scanAll_laidOut`: each of them is cut into the tokens.
-/

namespace ServiceRegistry.Json.Token

/-! ## A token at the front of a longer text -/

theorem scanString_append {cs left : List Char} {s : Spelled} {content : Option String}
    (h : scanString cs s = some (content, left)) (rest : List Char) :
    scanString (cs ++ rest) s = some (content, left ++ rest) := by
  fun_induction scanString cs s with
  | case1 => cases h
  | case2 =>
    cases h
    rfl
  | case3 => cases h
  | case4 a b c d cs s n hunit ih => simpa [scanString, hunit] using ih h
  | case5 => cases h
  | case6 e cs s hunit c hescape ih =>
    have hnot : e ≠ 'u' := by
      rintro rfl
      cases hescape
    rw [List.cons_append, List.cons_append, scanString]
    · simpa only [hescape] using ih h
    · exact fun _ _ _ _ _ heq => absurd heq hnot
  | case7 => cases h
  | case8 c cs s hquote _ hescape hprintable ih =>
    -- A backslash at the end is not a literal that has ended.
    have hnot : c ≠ '\\' := by
      rintro rfl
      cases cs with
      | nil => cases h
      | cons e cs => exact hescape e cs rfl rfl
    rw [List.cons_append, scanString]
    · simpa only [if_neg hprintable] using ih h
    · exact hquote
    · exact fun _ _ _ _ _ heq => absurd heq hnot
    · exact fun _ _ heq => absurd heq hnot

theorem digits_append_rest (cs : List Char) {rest : List Char} (hrest : Ends rest) :
    digits (cs ++ rest) = ((digits cs).1, (digits cs).2 ++ rest) := by
  induction cs with
  | nil =>
    have hnone : ∀ c ∈ ([] : List Char), c.isDigit = true := by simp
    exact digits_append hnone hrest
  | cons c cs ih =>
    rw [digits, Prod.mk.injEq] at ih
    by_cases hc : c.isDigit = true
    · simp [digits, hc, ih]
    · simp [digits, hc]

variable {cs left : List Char}

/-- A scanner that asks for digits, whatever it makes of them, reads no further in a longer text. -/
theorem scan_digits_append {read : List Char} (make : List Char → List Char)
    (h : (if (digits cs).1.isEmpty then none else some (make (digits cs).1, (digits cs).2)) =
      some (read, left)) {rest : List Char} (hrest : Ends rest) :
    (if (digits (cs ++ rest)).1.isEmpty then none
      else some (make (digits (cs ++ rest)).1, (digits (cs ++ rest)).2)) =
      some (read, left ++ rest) := by
  rw [digits_append_rest cs hrest]
  split at h
  · cases h
  · rename_i hsome
    cases h
    exact if_neg hsome

theorem scanWhole_append {whole : List Char} (h : scanWhole cs = some (whole, left)) {rest : List Char}
    (hrest : Ends rest) : scanWhole (cs ++ rest) = some (whole, left ++ rest) := by
  cases cs with
  | nil => cases h
  | cons c cs =>
    by_cases hzero : c = '0'
    · subst hzero
      rw [scanWhole, Option.ite_none_left_eq_some] at h
      obtain ⟨hdigit, hread⟩ := h
      cases hread
      rw [List.cons_append, scanWhole, if_neg]
      cases left with
      | nil =>
        cases rest with
        | nil => decide
        | cons c rest => simpa using hrest.not_isDigit c rfl
      | cons c left => exact hdigit
    · have hother : ∀ cs more, c :: cs = '0' :: more → False :=
        fun cs more heq => hzero (List.cons.inj heq).1
      rw [scanWhole.eq_2 _ (hother cs)] at h
      rw [List.cons_append, scanWhole.eq_2 _ (hother (cs ++ rest))]
      exact scan_digits_append id h hrest

theorem scanFraction_append {fraction : List Char} (h : scanFraction cs = some (fraction, left))
    {rest : List Char} (hrest : Ends rest) :
    scanFraction (cs ++ rest) = some (fraction, left ++ rest) := by
  cases cs with
  | nil =>
    cases h
    exact scanFraction_ends hrest
  | cons c cs =>
    by_cases hpoint : c = '.'
    · subst hpoint
      exact scan_digits_append ('.' :: ·) h hrest
    · have hother : ∀ cs more, c :: cs = '.' :: more → False :=
        fun cs more heq => hpoint (List.cons.inj heq).1
      rw [scanFraction.eq_2 _ (hother cs)] at h
      cases h
      exact scanFraction.eq_2 _ (hother (cs ++ rest))

theorem scanExponent_append {exponent : List Char} (h : scanExponent cs = some (exponent, left))
    {rest : List Char} (hrest : Ends rest) :
    scanExponent (cs ++ rest) = some (exponent, left ++ rest) := by
  cases cs with
  | nil =>
    cases h
    exact scanExponent_ends hrest
  | cons e cs =>
    by_cases hmark : (e == 'e' || e == 'E') = true
    · simp only [scanExponent, if_pos hmark, List.cons_append] at h ⊢
      cases cs with
      | nil => cases h
      | cons c cs =>
        rw [List.cons_append]
        split at h
        · rename_i heq
          cases heq
          exact scan_digits_append (fun ds => e :: ['+'] ++ ds) h hrest
        · rename_i heq
          cases heq
          exact scan_digits_append (fun ds => e :: ['-'] ++ ds) h hrest
        · rename_i hplus hminus
          split
          · rename_i heq
            exact (hplus cs (by rw [(List.cons.inj heq).1])).elim
          · rename_i heq
            exact (hminus cs (by rw [(List.cons.inj heq).1])).elim
          · exact scan_digits_append (fun ds => e :: [] ++ ds) h hrest
    · simp only [scanExponent, if_neg hmark] at h
      cases h
      exact if_neg hmark

theorem scanUnsigned_append {negative : Bool} {token : Token}
    (h : scanUnsigned negative cs = some (token, left)) {rest : List Char} (hrest : Ends rest) :
    scanUnsigned negative (cs ++ rest) = some (token, left ++ rest) := by
  simp only [scanUnsigned, Option.bind_eq_bind, Option.bind_eq_some_iff] at h
  obtain ⟨⟨whole, afterWhole⟩, hwhole, ⟨fraction, afterFraction⟩, hfraction,
    ⟨exponent, afterExponent⟩, hexponent, h⟩ := h
  simp only [scanUnsigned, scanWhole_append hwhole hrest, scanFraction_append hfraction hrest,
    scanExponent_append hexponent hrest, Option.bind_eq_bind, Option.bind_some]
  dsimp only at h
  split at h
  · rename_i hwritten
    rw [if_pos hwritten]
    cases h
    rfl
  · rename_i hwritten
    rw [if_neg hwritten]
    cases h
    rfl

theorem isNumber_of_scanUnsigned {negative : Bool} {token : Token}
    (h : scanUnsigned negative cs = some (token, left)) : token.isNumber = true := by
  simp only [scanUnsigned, Option.bind_eq_bind, Option.bind_eq_some_iff] at h
  obtain ⟨_, _, _, _, _, _, h⟩ := h
  split at h
  all_goals
    cases h
    rfl

theorem scanWhole_of_not_isDigit {c : Char} (h : c.isDigit = false) : scanWhole (c :: cs) = none := by
  have hzero : ∀ more, c :: cs = '0' :: more → False := by
    rintro more heq
    rw [(List.cons.inj heq).1] at h
    cases h
  rw [scanWhole.eq_2 _ hzero]
  simp [digits, h]

/-- A number starts with a digit or a minus sign. -/
theorem scanNumber_eq_some {token : Token} (h : scanNumber cs = some (token, left)) :
    ∃ c more, cs = c :: more ∧ (c = '-' ∨ c.isDigit = true) := by
  cases cs with
  | nil => cases h
  | cons c cs =>
    refine ⟨c, cs, rfl, ?_⟩
    by_cases hminus : c = '-'
    · exact Or.inl hminus
    · right
      have hother : ∀ more, c :: cs = '-' :: more → False := fun more heq => hminus (List.cons.inj heq).1
      rw [scanNumber.eq_2 _ hother] at h
      by_contra hdigit
      rw [scanUnsigned, scanWhole_of_not_isDigit (Bool.not_eq_true _ ▸ hdigit)] at h
      cases h

theorem scan_of_number {c : Char} (h : c = '-' ∨ c.isDigit = true) :
    scan (c :: cs) = scanNumber (c :: cs) := by
  rcases h with rfl | hdigit
  · rfl
  · have hminus : ∀ more, c :: cs = '-' :: more → False := by
      rintro more heq
      rw [(List.cons.inj heq).1] at hdigit
      cases hdigit
    rw [scan_digit hdigit, scanNumber.eq_2 _ hminus]

theorem scanNumber_append {token : Token} (h : scanNumber cs = some (token, left)) {rest : List Char}
    (hrest : Ends rest) : scanNumber (cs ++ rest) = some (token, left ++ rest) := by
  obtain ⟨c, cs, rfl, hc⟩ := scanNumber_eq_some h
  by_cases hminus : c = '-'
  · subst hminus
    exact scanUnsigned_append h hrest
  · have hother : ∀ cs more, c :: cs = '-' :: more → False :=
      fun cs more heq => hminus (List.cons.inj heq).1
    rw [scanNumber.eq_2 _ (hother cs)] at h
    rw [List.cons_append, scanNumber.eq_2 _ (hother (cs ++ rest))]
    exact scanUnsigned_append h hrest

theorem isNumber_of_scanNumber {token : Token} (h : scanNumber cs = some (token, left)) :
    token.isNumber = true := by
  rw [scanNumber.eq_def] at h
  split at h
  · exact isNumber_of_scanUnsigned h
  · exact isNumber_of_scanUnsigned h

/-- A token that is read from a text is read from the front of a longer one, unless the rest goes on a
number. -/
theorem scan_append {token : Token} (h : scan cs = some (token, left)) {rest : List Char}
    (hrest : token.isNumber = true → Ends rest) : scan (cs ++ rest) = some (token, left ++ rest) := by
  rw [scan.eq_def] at h
  split at h
  case h_10 =>
    simp only [Option.map_eq_some_iff] at h
    obtain ⟨⟨content, left⟩, hstring, h⟩ := h
    cases h
    simp only [List.cons_append, scan, scanString_append hstring, Option.map_some]
  case h_11 =>
    have hmore := scanNumber_append h (hrest (isNumber_of_scanNumber h))
    obtain ⟨c, cs, rfl, hc⟩ := scanNumber_eq_some h
    rw [List.cons_append, scan_of_number hc]
    exact hmore
  all_goals
    cases h
    rfl

/-! ## Laying out tokens -/

/-- A spelling of a token: a text that is read as this token alone. -/
def Spells (lexeme : List Char) (token : Token) : Prop := scan lexeme = some (token, [])

/-- The texts of a list of tokens, with any blanks around them, up to a tail. -/
inductive LaidOut (tail : List Char) : List Token → List Char → Prop
  | nil {blanks : List Char} (hblanks : ∀ c ∈ blanks, isBlank c = true) :
    LaidOut tail [] (blanks ++ tail)
  | cons {blanks lexeme rest : List Char} {token : Token} {tokens : List Token}
    (hblanks : ∀ c ∈ blanks, isBlank c = true) (hlexeme : Spells lexeme token)
    (hends : token.isNumber = true → Ends rest) (hrest : LaidOut tail tokens rest) :
    LaidOut tail (token :: tokens) (blanks ++ lexeme ++ rest)

theorem Spells.head {lexeme : List Char} {token : Token} (h : Spells lexeme token) :
    ∃ c more, lexeme = c :: more ∧ isBlank c = false := by
  cases lexeme with
  | nil => cases h
  | cons c more =>
    refine ⟨c, more, rfl, ?_⟩
    by_contra hblank
    simp only [isBlank, Bool.not_eq_false, Bool.or_eq_true, beq_iff_eq] at hblank
    rcases hblank with ((rfl | rfl) | rfl) | rfl
    all_goals cases h

theorem spells_chars {token : Token} (hexact : token.isExact = true) : Spells token.chars token := by
  have hscan := scan_chars hexact fun _ => ends_nil
  rwa [List.append_nil] at hscan

/-- The characters that tokens are written with are one of their texts. -/
theorem laidOut_chars {tokens : List Token} (hexact : ∀ token ∈ tokens, token.isExact = true)
    (hchain : tokens.IsChain Follows) {tail : List Char}
    (htail : ∀ last ∈ tokens.getLast?, last.isNumber = true → Ends tail) :
    LaidOut tail tokens (tokens.flatMap chars ++ tail) := by
  have hblanks : ∀ c ∈ ([] : List Char), isBlank c = true := by simp
  induction tokens with
  | nil => exact .nil hblanks
  | cons token tokens ih =>
    have hends : token.isNumber = true → Ends (tokens.flatMap chars ++ tail) := fun hnumber =>
      ends_flatMap hchain hnumber fun hnil => htail token (by simp [hnil]) hnumber
    have hlater : ∀ last ∈ tokens.getLast?, last.isNumber = true → Ends tail := by
      intro last hlast
      have hlast' : tokens.getLast? = some last := hlast
      exact htail last (by simp [List.getLast?_cons, hlast'])
    have hrest := ih (fun t ht => hexact t (List.mem_cons_of_mem _ ht)) hchain.of_cons hlater
    rw [List.flatMap_cons, List.append_assoc]
    exact .cons hblanks (spells_chars (hexact token List.mem_cons_self)) hends hrest

theorem scanAll_blanks {blanks : List Char} (hblanks : ∀ c ∈ blanks, isBlank c = true)
    (rest : List Char) {fuel : Nat} (hfuel : (blanks ++ rest).length ≤ fuel) (read : List Token) :
    ∃ left, rest.length ≤ left ∧ scanAll fuel (blanks ++ rest) read = scanAll left rest read := by
  induction blanks generalizing fuel with
  | nil => exact ⟨fuel, hfuel, rfl⟩
  | cons c blanks ih =>
    simp only [List.cons_append, List.length_cons] at hfuel
    obtain ⟨fuel, rfl⟩ : ∃ more, fuel = more + 1 := ⟨fuel - 1, by omega⟩
    obtain ⟨left, hleft, hread⟩ :=
      ih (fun other hmem => hblanks other (List.mem_cons_of_mem _ hmem)) (Nat.le_of_succ_le_succ hfuel)
    refine ⟨left, hleft, ?_⟩
    rw [List.cons_append, scanAll, if_pos (hblanks c List.mem_cons_self)]
    exact hread

/-- Any text of a list of tokens is cut into these tokens, and the tail is left. -/
theorem scanAll_laidOut {tail : List Char} {tokens : List Token} {cs : List Char}
    (h : LaidOut tail tokens cs) {fuel : Nat} (hfuel : cs.length ≤ fuel) (read : List Token) :
    ∃ left, tail.length ≤ left ∧
      scanAll fuel cs read = scanAll left tail (tokens.reverse ++ read) := by
  induction h generalizing fuel read with
  | nil hblanks => exact scanAll_blanks hblanks tail hfuel read
  | @cons blanks lexeme rest token tokens hblanks hlexeme hends _ ih =>
    rw [List.append_assoc] at hfuel ⊢
    obtain ⟨more, hmore, hread⟩ := scanAll_blanks hblanks (lexeme ++ rest) hfuel read
    have hscan := scan_append hlexeme hends
    obtain ⟨c, lexeme, rfl, hblank⟩ := hlexeme.head
    simp only [List.cons_append, List.length_cons, List.length_append] at hmore
    obtain ⟨more, rfl⟩ : ∃ less, more = less + 1 := ⟨more - 1, by omega⟩
    have hroom : rest.length ≤ more := by omega
    obtain ⟨left, hleft, hlater⟩ := ih hroom (token :: read)
    refine ⟨left, hleft, ?_⟩
    rw [hread, List.cons_append, scanAll, hblank, ← List.cons_append, hscan, List.reverse_cons,
      List.append_assoc]
    exact hlater

theorem ofText?_laidOut {tokens : List Token} {cs : List Char} (h : LaidOut [] tokens cs) :
    ofText? cs = some tokens := by
  obtain ⟨left, -, hread⟩ := scanAll_laidOut h le_rfl []
  simpa [ofText?, scanAll] using hread

end ServiceRegistry.Json.Token
