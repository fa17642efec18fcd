import Mathlib.Data.List.Infix
import ServiceRegistry.Json.Printer

/-!
# Reading back what is written: tokens

A token is read back from the front of a text, as long as no number is followed by what could go on it.
The only tokens left out are the numbers that keep their spelling, which need not be a number's.

* `Token.scanString_quote`: a string literal, whatever characters the string has.
* `Token.scan_decimal`: an integer.
* `Token.scan_chars`: any token.
-/

namespace ServiceRegistry.Json.Token

/-! ## Strings -/

theorem hex4?_control :
    ∀ n < 32, hex4? '0' '0' (hexChar (n / 16)) (hexChar (n % 16)) = some n := by decide

theorem pushUnit_control (s : Spelled) {c : Char} (h : c.toNat < 32) :
    s.pushUnit c.toNat = s.push c := by
  have hhigh : isHighHalf c.toNat = false := by
    simp only [isHighHalf, Bool.and_eq_false_iff, decide_eq_false_iff_not]
    omega
  have hlow : isLowHalf c.toNat = false := by
    simp only [isLowHalf, Bool.and_eq_false_iff, decide_eq_false_iff_not]
    omega
  simp [Spelled.pushUnit, hhigh, hlow]

/-- However a character is written, it is read as itself. -/
theorem scanString_escapeChar (c : Char) (rest : List Char) (s : Spelled) :
    scanString (escapeChar c ++ rest) s = scanString rest (s.push c) := by
  by_cases hescape : c ∈ ['"', '\\', '\x08', '\x0c', '\n', '\r', '\t']
  · simp only [List.mem_cons, List.not_mem_nil, or_false] at hescape
    rcases hescape with rfl | rfl | rfl | rfl | rfl | rfl | rfl
    all_goals simp [escapeChar, scanString, simpleEscape?]
  · simp only [List.mem_cons, List.not_mem_nil, or_false, not_or] at hescape
    obtain ⟨hquote, hbackslash, hb, hf, hn, hr, ht⟩ := hescape
    unfold escapeChar
    simp only [hquote, hbackslash, hb, hf, hn, hr, ht, if_false]
    by_cases hcontrol : c.toNat < 0x20
    · simp only [if_pos hcontrol, List.cons_append, List.nil_append, scanString,
        hex4?_control c.toNat hcontrol, pushUnit_control s hcontrol]
    · rw [if_neg hcontrol, List.singleton_append, scanString]
      · exact if_neg hcontrol
      · exact hquote
      · exact fun _ _ _ _ _ heq => absurd heq hbackslash
      · exact fun _ _ heq => absurd heq hbackslash

theorem scanString_escaped (cs rest : List Char) {s : Spelled} (hhalf : s.half = none)
    (hsound : s.sound = true) :
    scanString (cs.flatMap escapeChar ++ '"' :: rest) s =
      some (some (String.ofList (s.chars.reverse ++ cs)), rest) := by
  induction cs generalizing s with
  | nil => simp [scanString, Spelled.content, hhalf, hsound]
  | cons c cs ih =>
    rw [List.flatMap_cons, List.append_assoc, scanString_escapeChar, ih]
    · simp [Spelled.push]
    · rfl
    · simp [Spelled.push, hhalf, hsound]

theorem scanString_quote (text : String) (rest : List Char) :
    scanString (text.toList.flatMap escapeChar ++ '"' :: rest) {} = some (some text, rest) := by
  rw [scanString_escaped _ _ rfl rfl]
  simp

/-! ## Numbers -/

/-- What may follow a number: the end, or a character that no number goes on with. -/
def Ends (rest : List Char) : Prop :=
  ∀ c ∈ rest.head?, c.isDigit = false ∧ c ≠ '.' ∧ c ≠ 'e' ∧ c ≠ 'E'

theorem ends_nil : Ends [] := fun c hc => by cases hc

theorem Ends.not_isDigit {rest : List Char} (h : Ends rest) : ∀ c ∈ rest.head?, c.isDigit = false :=
  fun c hc => (h c hc).1

theorem digits_append {ds rest : List Char} (hdigits : ∀ c ∈ ds, c.isDigit = true)
    (hrest : Ends rest) : digits (ds ++ rest) = (ds, rest) := by
  have htake : rest.takeWhile Char.isDigit = [] := by
    cases rest with
    | nil => rfl
    | cons c cs => simp [hrest.not_isDigit c rfl]
  have hdrop : rest.dropWhile Char.isDigit = rest := by
    cases rest with
    | nil => rfl
    | cons c cs => simp [hrest.not_isDigit c rfl]
  rw [digits, List.takeWhile_append_of_pos hdigits, List.dropWhile_append_of_pos hdigits, htake, hdrop,
    List.append_nil]

theorem head_toDigits {n : Nat} (h : 0 < n) : (Nat.toDigits 10 n).head? ≠ some '0' := by
  induction n using Nat.strongRecOn with
  | ind n ih =>
    by_cases hn : n < 10
    · rw [Nat.toDigits_of_lt_base hn]
      have hsmall : ∀ m < 10, 0 < m → [Nat.digitChar m].head? ≠ some '0' := by decide
      exact hsmall n hn h
    · have hshorter := ih (n / 10) (by omega) (by omega)
      rw [Nat.toDigits_of_base_le (by decide) (by omega), List.head?_append]
      cases hdigits : Nat.toDigits 10 (n / 10) with
      | nil => exact absurd hdigits Nat.toDigits_ne_nil
      | cons c cs =>
        rw [hdigits] at hshorter
        simpa using hshorter

theorem isDigit_toDigits (n : Nat) : ∀ c ∈ Nat.toDigits 10 n, c.isDigit = true :=
  fun _ h => Nat.isDigit_of_mem_toDigits (by decide) (by decide) h

theorem scanWhole_toDigits (n : Nat) {rest : List Char} (hrest : Ends rest) :
    scanWhole (Nat.toDigits 10 n ++ rest) = some (Nat.toDigits 10 n, rest) := by
  by_cases hn : n = 0
  · subst hn
    have hnot : rest.head?.any Char.isDigit = false := by
      cases hhead : rest.head? with
      | none => rfl
      | some c => exact hrest.not_isDigit c hhead
    simp [scanWhole, hnot]
  · have hhead := head_toDigits (Nat.pos_of_ne_zero hn)
    have hsplit := digits_append (isDigit_toDigits n) hrest
    cases hdigits : Nat.toDigits 10 n with
    | nil => exact absurd hdigits Nat.toDigits_ne_nil
    | cons c cs =>
      rw [hdigits] at hhead hsplit
      have hzero : c ≠ '0' := fun heq => hhead (congrArg some heq)
      rw [scanWhole.eq_def]
      simp only [List.cons_append] at hsplit ⊢
      split
      · rename_i heq
        exact absurd (List.cons.inj heq).1 hzero
      · simp [hsplit]

theorem scanFraction_ends {rest : List Char} (hrest : Ends rest) : scanFraction rest = some ([], rest) := by
  cases rest with
  | nil => rfl
  | cons c cs =>
    obtain ⟨-, hpoint, -, -⟩ := hrest c rfl
    rw [scanFraction]
    intro rest heq
    exact hpoint (List.cons.inj heq).1

theorem scanExponent_ends {rest : List Char} (hrest : Ends rest) : scanExponent rest = some ([], rest) := by
  cases rest with
  | nil => rfl
  | cons c cs =>
    obtain ⟨-, -, hlower, hupper⟩ := hrest c rfl
    simp [scanExponent, hlower, hupper]

theorem scanUnsigned_toDigits (negative : Bool) {n : Nat} (hn : negative = true → 0 < n)
    {rest : List Char} (hrest : Ends rest) :
    scanUnsigned negative (Nat.toDigits 10 n ++ rest) =
      some (integer (if negative then -n else n), rest) := by
  have hzero : negative = true → ¬ Nat.toDigits 10 n = ['0'] := by
    intro hnegative heq
    have hhead := head_toDigits (hn hnegative)
    rw [heq] at hhead
    exact hhead rfl
  have hvalue : Nat.ofDigitChars 10 (Nat.toDigits 10 n) 0 = n :=
    Nat.ofDigitChars_toDigits (by decide) (by decide)
  simp [scanUnsigned, scanWhole_toDigits n hrest, scanFraction_ends hrest, scanExponent_ends hrest,
    hvalue]
  exact hzero

theorem scan_digit {c : Char} (h : c.isDigit = true) (cs : List Char) :
    scan (c :: cs) = scanUnsigned false (c :: cs) := by
  have hother : ∀ other : Char, other.isDigit = false → c ≠ other := by
    rintro other hnot rfl
    rw [h] at hnot
    cases hnot
  have hnumber : scanNumber (c :: cs) = scanUnsigned false (c :: cs) := by
    rw [scanNumber.eq_def]
    split
    · rename_i heq
      exact absurd (List.cons.inj heq).1 (hother '-' (by decide))
    · rfl
  rw [scan.eq_def]
  split
  case h_11 => exact hnumber
  all_goals
    rename_i heq
    exact absurd (List.cons.inj heq).1 (hother _ (by decide))

theorem scan_decimal (n : Int) {rest : List Char} (hrest : Ends rest) :
    scan (decimal n ++ rest) = some (integer n, rest) := by
  unfold decimal
  split
  · rename_i hneg
    have hpos : 0 < n.natAbs := by omega
    have hvalue : -(n.natAbs : Int) = n := by omega
    rw [List.cons_append]
    change scanUnsigned true _ = _
    rw [scanUnsigned_toDigits true (fun _ => hpos) hrest, if_pos rfl, hvalue]
  · rename_i hneg
    have hvalue : (n.natAbs : Int) = n := by omega
    have hscan := scanUnsigned_toDigits false (n := n.natAbs) nofun hrest
    cases hdigits : Nat.toDigits 10 n.natAbs with
    | nil => exact absurd hdigits Nat.toDigits_ne_nil
    | cons c cs =>
      have hdigit : c.isDigit = true := isDigit_toDigits n.natAbs c (hdigits ▸ List.mem_cons_self)
      rw [hdigits] at hscan
      rw [List.cons_append, scan_digit hdigit]
      exact hscan.trans (by simp [hvalue])

/-! ## Lists of tokens -/

/-- Whether the token is read back from its characters: not so a number that keeps its spelling. -/
def isExact : Token → Bool
  | .real _ => false
  | _ => true

def isNumber : Token → Bool
  | .integer _ => true
  | .real _ => true
  | _ => false

/-- Whether the token can follow a number. -/
def isMark : Token → Bool
  | .comma => true
  | .colon => true
  | .rightBracket => true
  | .rightBrace => true
  | _ => false

/-- One token may follow the other. -/
def Follows (first second : Token) : Prop := first.isNumber = true → second.isMark = true

theorem scan_chars {token : Token} (hexact : token.isExact = true) {rest : List Char}
    (hrest : token.isNumber = true → Ends rest) : scan (token.chars ++ rest) = some (token, rest) := by
  cases token with
  | integer n => exact scan_decimal n (hrest rfl)
  | real spelling => cases hexact
  | bool value => cases value <;> rfl
  | string content =>
    cases content with
    | none => rfl
    | some text =>
      have hquote := scanString_quote text rest
      simp only [chars, quote, List.cons_append, List.append_assoc, List.nil_append, scan, hquote,
        Option.map_some]
  | _ => rfl

theorem ends_chars {token : Token} (h : token.isMark = true) (rest : List Char) :
    Ends (token.chars ++ rest) := by
  intro c hc
  cases token with
  | comma => cases hc; decide
  | colon => cases hc; decide
  | rightBracket => cases hc; decide
  | rightBrace => cases hc; decide
  | _ => cases h

/-- The characters after a token, if what follows it may. -/
theorem ends_flatMap {token : Token} {tokens : List Token} (h : (token :: tokens).IsChain Follows)
    (hnumber : token.isNumber = true) {rest : List Char} (hrest : tokens = [] → Ends rest) :
    Ends (tokens.flatMap chars ++ rest) := by
  cases tokens with
  | nil => exact hrest rfl
  | cons next tokens =>
    rw [List.flatMap_cons, List.append_assoc]
    exact ends_chars ((List.isChain_cons_cons.mp h).1 hnumber) _

/-- What has been read stays at the front of the tokens. -/
theorem scanAll_prefix {fuel : Nat} {cs : List Char} {read tokens : List Token}
    (h : scanAll fuel cs read = some tokens) : read.reverse <+: tokens := by
  induction fuel generalizing cs read with
  | zero =>
    cases cs with
    | nil => exact (Option.some.inj h) ▸ List.prefix_rfl
    | cons c rest => cases h
  | succ fuel ih =>
    cases cs with
    | nil => exact (Option.some.inj h) ▸ List.prefix_rfl
    | cons c rest =>
      rw [scanAll] at h
      split at h
      · exact ih h
      · split at h
        · cases h
        · have hlater := ih h
          rw [List.reverse_cons] at hlater
          exact (List.prefix_append _ _).trans hlater

end ServiceRegistry.Json.Token
