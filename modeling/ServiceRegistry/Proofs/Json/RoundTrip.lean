import Mathlib.Data.List.Chain
import ServiceRegistry.Json.Reader
import ServiceRegistry.Proofs.Json.Layout

/-!
# Reading back what is written: values

A value is read back from its text, whatever strings and integers it is made of.

* `readValue_tokens` and the like: the reader takes the tokens of a value and no more.
* `ofText?_writtenAs`: every text of a value is read as the value.
* `ofText?_toText`: a value without numbers that keep their spelling comes back from its text.
-/

namespace ServiceRegistry.Json

open Token (Follows)

/-! ## The tokens of a value may follow each other -/

theorem Token.Follows.of_mark (first : Token) {second : Token} (h : second.isMark = true) :
    Follows first second := fun _ => h

theorem chain_cons {token : Token} (h : token.isNumber = false) {tokens : List Token}
    (htokens : tokens.IsChain Follows) : (token :: tokens).IsChain Follows := by
  refine List.isChain_cons.mpr ⟨fun next _ hnumber => ?_, htokens⟩
  rw [h] at hnumber
  cases hnumber

theorem chain_append_mark {first : List Token} (hfirst : first.IsChain Follows) {mark : Token}
    (hmark : mark.isMark = true) {rest : List Token} (hrest : rest.IsChain Follows)
    (hnumber : mark.isNumber = false) : (first ++ mark :: rest).IsChain Follows := by
  refine hfirst.append (chain_cons hnumber hrest) fun last _ next hnext => ?_
  cases Option.mem_some.mp hnext
  exact .of_mark last hmark

mutual

theorem chain_tokens (value : Json) : value.tokens.IsChain Follows := by
  cases value with
  | array items =>
    simp only [tokens, List.cons_append]
    exact chain_cons rfl (chain_append_mark (chain_itemTokens items) rfl .nil rfl)
  | object fields =>
    simp only [tokens, List.cons_append]
    exact chain_cons rfl (chain_append_mark (chain_fieldTokens fields) rfl .nil rfl)
  | _ => simp [tokens]

theorem chain_itemTokens (items : List Json) : (itemTokens items).IsChain Follows := by
  match items with
  | [] => simp [itemTokens]
  | [item] =>
    simp only [itemTokens]
    exact chain_tokens item
  | item :: next :: rest =>
    simp only [itemTokens]
    exact chain_append_mark (chain_tokens item) rfl (chain_itemTokens (next :: rest)) rfl

theorem chain_fieldTokens (fields : List (Option String × Json)) :
    (fieldTokens fields).IsChain Follows := by
  match fields with
  | [] => simp [fieldTokens]
  | [(key, value)] =>
    simp only [fieldTokens]
    exact chain_cons rfl (chain_cons rfl (chain_tokens value))
  | (key, value) :: next :: rest =>
    simp only [fieldTokens, List.cons_append]
    exact chain_cons rfl (chain_cons rfl
      (chain_append_mark (chain_tokens value) rfl (chain_fieldTokens (next :: rest)) rfl))

end

/-! ## The reader -/

theorem tokens_head (value : Json) : ∃ token rest, value.tokens = token :: rest ∧ token ≠ .rightBracket := by
  cases value <;> exact ⟨_, _, rfl, nofun⟩

theorem itemTokens_head (item : Json) (items : List Json) :
    ∃ token rest, itemTokens (item :: items) = token :: rest ∧ token ≠ .rightBracket := by
  obtain ⟨token, rest, htokens, hne⟩ := tokens_head item
  cases items with
  | nil => exact ⟨token, rest, htokens, hne⟩
  | cons next items =>
    refine ⟨token, rest ++ .comma :: itemTokens (next :: items), ?_, hne⟩
    simp only [itemTokens, htokens, List.cons_append]

mutual

/-- The reader takes the tokens of a value and leaves the rest. -/
theorem readValue_tokens (value : Json) {fuel : Nat} (hfuel : value.tokens.length ≤ fuel)
    (rest : List Token) : readValue fuel (value.tokens ++ rest) = some (value, rest) := by
  obtain ⟨fuel, rfl⟩ : ∃ left, fuel = left + 1 := by
    obtain ⟨token, tail, htokens, -⟩ := tokens_head value
    rw [htokens, List.length_cons] at hfuel
    exact ⟨fuel - 1, by omega⟩
  cases value with
  | array items =>
    cases items with
    | nil => simp [tokens, itemTokens, readValue]
    | cons item items =>
      simp only [tokens, List.length_append, List.length_cons, List.length_nil] at hfuel
      have hitems := readItems_tokens item items fuel (by omega) [] rest
      obtain ⟨token, tail, htokens, hne⟩ := itemTokens_head item items
      simp only [tokens, List.cons_append, List.append_assoc, List.nil_append]
      rw [readValue, hitems]
      · rfl
      · intro others heq
        rw [htokens] at heq
        exact hne (List.cons.inj heq).1
  | object fields =>
    cases fields with
    | nil => simp [tokens, fieldTokens, readValue]
    | cons field fields =>
      obtain ⟨key, value⟩ := field
      simp only [tokens, List.length_append, List.length_cons, List.length_nil] at hfuel
      have hfields := readFields_tokens key value fields fuel (by omega) [] rest
      simp only [tokens, List.cons_append, List.append_assoc, List.nil_append]
      rw [readValue, hfields]
      · rfl
      · intro others heq
        cases fields <;> simp [fieldTokens] at heq
  | _ => simp [tokens, readValue]
termination_by fuel

theorem readItems_tokens (item : Json) (items : List Json) (fuel : Nat)
    (hfuel : (itemTokens (item :: items)).length < fuel) (read : List Json) (rest : List Token) :
    readItems fuel (itemTokens (item :: items) ++ .rightBracket :: rest) read =
      some (read.reverse ++ item :: items, rest) := by
  obtain ⟨fuel, rfl⟩ : ∃ left, fuel = left + 1 := ⟨fuel - 1, by omega⟩
  cases items with
  | nil =>
    simp only [itemTokens] at hfuel ⊢
    rw [readItems, readValue_tokens item (by omega)]
    simp
  | cons next items =>
    simp only [itemTokens, List.length_append, List.length_cons] at hfuel
    simp only [itemTokens, List.append_assoc, List.cons_append]
    rw [readItems, readValue_tokens item (by omega)]
    simp only
    rw [readItems_tokens next items fuel (by omega)]
    simp
termination_by fuel

theorem readFields_tokens (key : Option String) (value : Json)
    (fields : List (Option String × Json)) (fuel : Nat)
    (hfuel : (fieldTokens ((key, value) :: fields)).length < fuel)
    (read : List (Option String × Json)) (rest : List Token) :
    readFields fuel (fieldTokens ((key, value) :: fields) ++ .rightBrace :: rest) read =
      some (read.reverse ++ (key, value) :: fields, rest) := by
  obtain ⟨fuel, rfl⟩ : ∃ left, fuel = left + 1 := ⟨fuel - 1, by omega⟩
  cases fields with
  | nil =>
    simp only [fieldTokens, List.length_cons] at hfuel
    simp only [fieldTokens, List.cons_append]
    rw [readFields, readValue_tokens value (by omega)]
    simp
  | cons next fields =>
    obtain ⟨nextKey, nextValue⟩ := next
    simp only [fieldTokens, List.length_append, List.length_cons] at hfuel
    simp only [fieldTokens, List.append_assoc, List.cons_append]
    rw [readFields, readValue_tokens value (by omega)]
    simp only
    rw [readFields_tokens nextKey nextValue fields fuel (by omega)]
    simp
termination_by fuel

end

/-- Whether a value has no number that keeps its spelling. -/
def Exact (value : Json) : Prop := ∀ token ∈ value.tokens, token.isExact = true

theorem ofTokens?_tokens (value : Json) : ofTokens? value.tokens = some value := by
  have hread := readValue_tokens value (Nat.le_succ value.tokens.length) []
  rw [List.append_nil] at hread
  rw [ofTokens?, hread]

/-- A text of a value, whatever blanks it has and however it spells the strings. -/
def WrittenAs (value : Json) (text : String) : Prop := Token.LaidOut [] value.tokens text.toList

/-- Every text of a value is read as the value. -/
theorem ofText?_writtenAs {value : Json} {text : String} (h : value.WrittenAs text) :
    ofText? text = some value := by
  rw [ofText?, Token.ofText?_laidOut h]
  exact ofTokens?_tokens value

theorem writtenAs_toText {value : Json} (h : value.Exact) : value.WrittenAs value.toText := by
  have htext := Token.laidOut_chars h (chain_tokens value) fun _ _ _ => Token.ends_nil
  rw [List.append_nil] at htext
  rwa [WrittenAs, toText, String.toList_ofList]

/-- A value is read back from its text. -/
theorem ofText?_toText {value : Json} (h : value.Exact) : ofText? value.toText = some value :=
  ofText?_writtenAs (writtenAs_toText h)

/-- A value is all that its text spells: with an object after it, the text is that of no value. -/
theorem ofText?_append {value : Json} (h : value.Exact)
    (hlast : ∀ last ∈ value.tokens.getLast?, last.isNumber = false) {rest : String}
    (hrest : rest.toList.head? = some '{') : ofText? (value.toText ++ rest) = none := by
  obtain ⟨cs, hcs⟩ : ∃ cs, rest.toList = '{' :: cs := List.head?_eq_some_iff.mp hrest
  have hends : ∀ last ∈ value.tokens.getLast?, last.isNumber = true → Token.Ends ('{' :: cs) := by
    intro last hmem hnumber
    rw [hlast last hmem] at hnumber
    cases hnumber
  obtain ⟨left, hleft, hread⟩ :=
    Token.scanAll_laidOut (Token.laidOut_chars h (chain_tokens value) hends) le_rfl []
  obtain ⟨left, rfl⟩ : ∃ less, left = less + 1 := ⟨left - 1, by simp only [List.length_cons] at hleft; omega⟩
  have htokens : Token.ofText? (value.toText ++ rest).toList =
      Token.scanAll left cs (.leftBrace :: (value.tokens.reverse ++ [])) := by
    rw [String.toList_append, hcs, toText, String.toList_ofList]
    exact hread
  rw [ofText?, htokens]
  cases hall : Token.scanAll left cs (.leftBrace :: (value.tokens.reverse ++ [])) with
  | none => rfl
  | some all =>
    obtain ⟨more, hmore⟩ := Token.scanAll_prefix hall
    have hsplit : all = value.tokens ++ .leftBrace :: more := by
      simpa using hmore.symm
    have hroom : value.tokens.length ≤ all.length + 1 := by
      rw [hsplit, List.length_append]
      omega
    have hvalue := readValue_tokens value hroom (.leftBrace :: more)
    rw [← hsplit] at hvalue
    change ofTokens? all = none
    rw [ofTokens?, hvalue]

/-! ## Values that are exact -/

theorem exact_integer (n : Int) : (integer n).Exact := by
  simp [Exact, tokens, Token.isExact]

theorem exact_string (content : Option String) : (string content).Exact := by
  simp [Exact, tokens, Token.isExact]

theorem mem_itemTokens {items : List Json} {token : Token} (h : token ∈ itemTokens items) :
    token = .comma ∨ ∃ item ∈ items, token ∈ item.tokens := by
  induction items with
  | nil => simp [itemTokens] at h
  | cons item items ih =>
    cases items with
    | nil => exact Or.inr ⟨item, List.mem_singleton_self item, h⟩
    | cons next items =>
      simp only [itemTokens, List.mem_append, List.mem_cons] at h
      rcases h with hitem | hcomma | hrest
      · exact Or.inr ⟨item, List.mem_cons_self, hitem⟩
      · exact Or.inl hcomma
      · rcases ih hrest with hcomma | ⟨other, hmem, hother⟩
        · exact Or.inl hcomma
        · exact Or.inr ⟨other, List.mem_cons_of_mem _ hmem, hother⟩

theorem exact_array {items : List Json} (h : ∀ item ∈ items, item.Exact) : (array items).Exact := by
  intro token htoken
  simp only [tokens, List.cons_append, List.mem_cons, List.mem_append, List.not_mem_nil,
    or_false] at htoken
  rcases htoken with rfl | hitems | rfl
  · rfl
  · rcases mem_itemTokens hitems with rfl | ⟨item, hmem, hitem⟩
    · rfl
    · exact h item hmem token hitem
  · rfl

theorem exact_ofOption {α : Type} {encode : α → Json} (h : ∀ value, (encode value).Exact)
    (value? : Option α) : (ofOption encode value?).Exact := by
  cases value? with
  | none => simp [Exact, ofOption, tokens, Token.isExact]
  | some value => exact h value

end ServiceRegistry.Json
