import ServiceRegistry.Proofs.Json.RoundTrip

/-!
# Values on lines of their own

The text of a value holds no control character, so it fits on one line of a file.  A line break is a byte
of its own in UTF-8, which occurs in the encoding of no other character.  A file can therefore be cut into
lines byte by byte, and what has been added to it after a line break are lines of their own.

* `linesOf` cuts bytes into lines, and `linesOf_append` and `linesOf_line` say how lines are added.
* `Json.newline_notMem_toText`: a text without line breaks.
* `Json.ofFields` gives exact values if its fields are exact (`Json.exact_ofFields`).
-/

namespace ServiceRegistry

/-! ## Lines of bytes -/

/-- The line break in UTF-8. -/
def newline : UInt8 := 10

/-- The lines of a content, without the line breaks at their ends; one at the very end may be missing. -/
def linesOf : List UInt8 → List (List UInt8)
  | [] => []
  | b :: rest =>
    if b = newline then [] :: linesOf rest
    else
      match linesOf rest with
      | [] => [[b]]
      | line :: lines => (b :: line) :: lines

/-- The content is empty, or its last line has ended. -/
def LinesEnd (content : List UInt8) : Prop := content = [] ∨ content.getLast? = some newline

theorem linesOf_line {line : List UInt8} (h : newline ∉ line) (rest : List UInt8) :
    linesOf (line ++ newline :: rest) = line :: linesOf rest := by
  induction line with
  | nil => rw [List.nil_append, linesOf, if_pos rfl]
  | cons b line ih =>
    rw [List.mem_cons, not_or] at h
    rw [List.cons_append, linesOf, if_neg (Ne.symm h.1), ih h.2]

/-- What is added after a line that has ended are lines of its own. -/
theorem linesOf_append {content : List UInt8} (h : LinesEnd content) (more : List UInt8) :
    linesOf (content ++ more) = linesOf content ++ linesOf more := by
  induction content with
  | nil => rfl
  | cons b rest ih =>
    have hlast : (b :: rest).getLast? = some newline := h.resolve_left (List.cons_ne_nil _ _)
    cases rest with
    | nil =>
      obtain rfl : b = newline := Option.some.inj hlast
      simp [linesOf]
    | cons next rest =>
      rw [List.getLast?_cons_cons] at hlast
      have hrest := ih (Or.inr hlast)
      rw [List.cons_append, linesOf, linesOf, hrest]
      have hne : linesOf (next :: rest) ≠ [] := by
        rw [linesOf]
        split
        · exact List.cons_ne_nil _ _
        · split <;> exact List.cons_ne_nil _ _
      obtain ⟨line, lines, hlines⟩ := List.exists_cons_of_ne_nil hne
      rw [hlines]
      split <;> rfl

/-- Lines that are written one after another, each with its line break. -/
theorem linesOf_flatMap {lines : List (List UInt8)} (h : ∀ line ∈ lines, newline ∉ line) :
    linesOf (lines.flatMap fun line => line ++ [newline]) = lines := by
  induction lines with
  | nil => rfl
  | cons line lines ih =>
    rw [List.flatMap_cons, List.append_assoc, List.singleton_append,
      linesOf_line (h line List.mem_cons_self), ih fun other hmem => h other (List.mem_cons_of_mem _ hmem)]

/-! ## Texts in UTF-8 -/

/-- The bytes of a text. -/
def utf8 (text : String) : List UInt8 := text.toUTF8.data.toList

theorem utf8_append (first second : String) : utf8 (first ++ second) = utf8 first ++ utf8 second := by
  simp [utf8]

theorem utf8_eq_flatMap (text : String) : utf8 text = text.toList.flatMap String.utf8EncodeChar := by
  have hbytes : text.toUTF8 = (text.toList.flatMap String.utf8EncodeChar).toByteArray :=
    String.utf8Encode_toList.symm
  rw [utf8, hbytes]
  simp

/-- All bytes of a character that takes several are past the line break. -/
theorem newline_mem_utf8EncodeChar {c : Char} (h : newline ∈ String.utf8EncodeChar c) : c = '\n' := by
  have hbyte : ∀ n : Nat, newline = UInt8.ofNat n → n % 256 = 10 := by
    intro n heq
    have hvalue := congrArg UInt8.toNat heq
    rw [UInt8.toNat_ofNat'] at hvalue
    exact hvalue.symm
  simp only [String.utf8EncodeChar] at h
  by_cases hone : c.val.toNat ≤ 127
  · rw [if_pos hone, List.mem_singleton] at h
    have hvalue := hbyte _ h
    apply Char.toNat_inj.mp
    change c.val.toNat = 10
    omega
  · exfalso
    rw [if_neg hone] at h
    split at h
    · simp only [List.mem_cons, List.not_mem_nil, or_false] at h
      rcases h with h | h
      all_goals
        have hvalue := hbyte _ h
        omega
    · split at h
      · simp only [List.mem_cons, List.not_mem_nil, or_false] at h
        rcases h with h | h | h
        all_goals
          have hvalue := hbyte _ h
          omega
      · simp only [List.mem_cons, List.not_mem_nil, or_false] at h
        rcases h with h | h | h | h
        all_goals
          have hvalue := hbyte _ h
          omega

theorem newline_notMem_utf8 {text : String} (h : '\n' ∉ text.toList) : newline ∉ utf8 text := by
  rw [utf8_eq_flatMap, List.mem_flatMap]
  rintro ⟨c, hc, hbyte⟩
  exact h (newline_mem_utf8EncodeChar hbyte ▸ hc)

/-! ## Values without line breaks -/

namespace Json

theorem Token.newline_notMem_escapeChar (c : Char) : '\n' ∉ escapeChar c := by
  have hdigit : ∀ n < 16, '\n' ≠ hexChar n := by decide
  unfold escapeChar
  repeat' split
  · decide
  · decide
  · decide
  · decide
  · decide
  · decide
  · decide
  · rename_i hcontrol
    have hhigh := hdigit (c.toNat / 16) (by omega)
    have hlow := hdigit (c.toNat % 16) (by omega)
    simp [hhigh, hlow]
  · rename_i hother _ _ _
    simp [Ne.symm hother]

theorem Token.newline_notMem_decimal (n : Int) : '\n' ∉ decimal n := by
  have hdigits : '\n' ∉ Nat.toDigits 10 n.natAbs := by
    intro hmem
    have hdigit := Token.isDigit_toDigits n.natAbs _ hmem
    revert hdigit
    decide
  unfold decimal
  split
  · rw [List.mem_cons, not_or]
    exact ⟨by decide, hdigits⟩
  · exact hdigits

theorem Token.newline_notMem_chars {token : Token} (h : token.isExact = true) : '\n' ∉ token.chars := by
  cases token with
  | integer n => exact newline_notMem_decimal n
  | real spelling => cases h
  | bool value => cases value <;> decide
  | string content =>
    cases content with
    | none => decide
    | some text =>
      have hescaped : '\n' ∉ text.toList.flatMap escapeChar := by
        rw [List.mem_flatMap]
        rintro ⟨c, -, hc⟩
        exact newline_notMem_escapeChar c hc
      simp [chars, quote, hescaped]
  | _ => decide

/-- The text of a value has no line break. -/
theorem newline_notMem_toText {value : Json} (h : value.Exact) : '\n' ∉ value.toText.toList := by
  rw [toText, String.toList_ofList, List.mem_flatMap]
  rintro ⟨token, htoken, hmem⟩
  exact Token.newline_notMem_chars (h token htoken) hmem

/-! ## Objects that are exact -/

theorem mem_fieldTokens {fields : List (Option String × Json)} {token : Token}
    (h : token ∈ fieldTokens fields) :
    token = .comma ∨ token = .colon ∨ (∃ key, token = .string key) ∨
      ∃ field ∈ fields, token ∈ field.2.tokens := by
  induction fields with
  | nil => simp [fieldTokens] at h
  | cons field fields ih =>
    obtain ⟨key, value⟩ := field
    cases fields with
    | nil =>
      simp only [fieldTokens, List.mem_cons] at h
      rcases h with hkey | hcolon | hvalue
      · exact Or.inr (Or.inr (Or.inl ⟨key, hkey⟩))
      · exact Or.inr (Or.inl hcolon)
      · exact Or.inr (Or.inr (Or.inr ⟨_, List.mem_cons_self, hvalue⟩))
    | cons next fields =>
      simp only [fieldTokens, List.mem_append, List.mem_cons] at h
      rcases h with (hkey | hcolon | hvalue) | hcomma | hrest
      · exact Or.inr (Or.inr (Or.inl ⟨key, hkey⟩))
      · exact Or.inr (Or.inl hcolon)
      · exact Or.inr (Or.inr (Or.inr ⟨_, List.mem_cons_self, hvalue⟩))
      · exact Or.inl hcomma
      · rcases ih hrest with hcomma | hcolon | hkey | ⟨other, hmem, hother⟩
        · exact Or.inl hcomma
        · exact Or.inr (Or.inl hcolon)
        · exact Or.inr (Or.inr (Or.inl hkey))
        · exact Or.inr (Or.inr (Or.inr ⟨other, List.mem_cons_of_mem _ hmem, hother⟩))

theorem exact_object {fields : List (Option String × Json)} (h : ∀ field ∈ fields, field.2.Exact) :
    (object fields).Exact := by
  intro token htoken
  simp only [tokens, List.cons_append, List.mem_cons, List.mem_append, List.not_mem_nil,
    or_false] at htoken
  rcases htoken with rfl | hfields | rfl
  · rfl
  · rcases mem_fieldTokens hfields with rfl | rfl | ⟨key, rfl⟩ | ⟨field, hmem, hfield⟩
    · rfl
    · rfl
    · rfl
    · exact h field hmem token hfield
  · rfl

theorem exact_ofFields {fields : List (String × Json)} (h : ∀ field ∈ fields, field.2.Exact) :
    (ofFields fields).Exact := by
  apply exact_object
  intro field hfield
  obtain ⟨⟨key, value⟩, hmem, rfl⟩ := List.mem_map.mp hfield
  exact h (key, value) hmem

/-- The value that the bytes of a line spell. -/
def ofLine? (line : List UInt8) : Option Json := do
  ofText? (← String.fromUTF8? ⟨line.toArray⟩)

/-- A value is read back from a line of its own. -/
theorem ofLine?_toText {value : Json} (h : value.Exact) : ofLine? (utf8 value.toText) = some value := by
  have hbytes : ByteArray.mk (utf8 value.toText).toArray = value.toText.toUTF8 := by
    simp [utf8]
  have htext : String.fromUTF8? value.toText.toUTF8 = some value.toText :=
    dif_pos value.toText.isValidUTF8
  rw [ofLine?, hbytes, htext]
  exact ofText?_toText h

end Json

end ServiceRegistry
