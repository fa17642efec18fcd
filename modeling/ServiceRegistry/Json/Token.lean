import ServiceRegistry.Json.Value

/-!
# JSON tokens

A JSON text is first cut into tokens, blanks between them dropped.  String literals are decoded on
the way and numbers are checked against the grammar: no leading zeros, no plus sign, at least one
digit after a point or an exponent.
-/

namespace ServiceRegistry.Json

inductive Token
  | leftBrace
  | rightBrace
  | leftBracket
  | rightBracket
  | colon
  | comma
  | null
  | bool (value : Bool)
  | integer (value : Int)
  | real (spelling : String)
  | string (content : Option String)
deriving DecidableEq, Repr, Inhabited

namespace Token

/-! ## Strings -/

def hexDigit? (c : Char) : Option Nat :=
  if '0' ≤ c ∧ c ≤ '9' then some (c.toNat - 48)
  else if 'a' ≤ c ∧ c ≤ 'f' then some (c.toNat - 87)
  else if 'A' ≤ c ∧ c ≤ 'F' then some (c.toNat - 55)
  else none

def hex4? (a b c d : Char) : Option Nat := do
  return (((← hexDigit? a) * 16 + (← hexDigit? b)) * 16 + (← hexDigit? c)) * 16 + (← hexDigit? d)

def simpleEscape? : Char → Option Char
  | '"' => some '"'
  | '\\' => some '\\'
  | '/' => some '/'
  | 'b' => some '\x08'
  | 'f' => some '\x0c'
  | 'n' => some '\n'
  | 'r' => some '\r'
  | 't' => some '\t'
  | _ => none

/-- The first half of a surrogate pair. -/
def isHighHalf (n : Nat) : Bool := 0xd800 ≤ n && n < 0xdc00

/-- The second half of a surrogate pair. -/
def isLowHalf (n : Nat) : Bool := 0xdc00 ≤ n && n < 0xe000

def pairChar (high low : Nat) : Char := Char.ofNat (0x10000 + (high - 0xd800) * 1024 + (low - 0xdc00))

/-- What a string literal has spelled so far. -/
structure Spelled where
  /-- The characters, the last one first. -/
  chars : List Char := []
  /-- The first half of a surrogate pair that waits for its second one. -/
  half : Option Nat := none
  /-- Whether no half of a pair has been left alone. -/
  sound : Bool := true
deriving DecidableEq, Repr, Inhabited

namespace Spelled

/-- One more character; a half that waited is left alone. -/
def push (s : Spelled) (c : Char) : Spelled := ⟨c :: s.chars, none, s.sound && s.half.isNone⟩

/-- One more unit of 16 bits: a character or half of a pair. -/
def pushUnit (s : Spelled) (n : Nat) : Spelled :=
  if isHighHalf n then ⟨s.chars, some n, s.sound && s.half.isNone⟩
  else if isLowHalf n then
    match s.half with
    | some high => ⟨pairChar high n :: s.chars, none, s.sound⟩
    | none => { s with sound := false }
  else s.push (Char.ofNat n)

/-- The text that was spelled, if no half of a pair stands alone. -/
def content (s : Spelled) : Option String :=
  if s.sound && s.half.isNone then some (String.ofList s.chars.reverse) else none

end Spelled

/-- Reads the rest of a string literal up to its closing quote. -/
def scanString : List Char → Spelled → Option (Option String × List Char)
  | [], _ => none
  | '"' :: rest, spelled => some (spelled.content, rest)
  | '\\' :: 'u' :: a :: b :: c :: d :: rest, spelled =>
    match hex4? a b c d with
    | none => none
    | some n => scanString rest (spelled.pushUnit n)
  | '\\' :: e :: rest, spelled =>
    match simpleEscape? e with
    | none => none
    | some c => scanString rest (spelled.push c)
  | c :: rest, spelled => if c.toNat < 0x20 then none else scanString rest (spelled.push c)

/-! ## Numbers -/

/-- The digits at the front of a text, and what follows them. -/
def digits (cs : List Char) : List Char × List Char :=
  (cs.takeWhile Char.isDigit, cs.dropWhile Char.isDigit)

/-- The digits before the point: zero, or digits that do not start with zero. -/
def scanWhole (cs : List Char) : Option (List Char × List Char) :=
  match cs with
  | '0' :: rest => if rest.head?.any Char.isDigit then none else some (['0'], rest)
  | _ => if (digits cs).1.isEmpty then none else some (digits cs)

/-- A point with the digits after it, if there is one. -/
def scanFraction (cs : List Char) : Option (List Char × List Char) :=
  match cs with
  | '.' :: rest =>
    if (digits rest).1.isEmpty then none else some ('.' :: (digits rest).1, (digits rest).2)
  | _ => some ([], cs)

/-- An exponent, if there is one. -/
def scanExponent (cs : List Char) : Option (List Char × List Char) :=
  match cs with
  | e :: rest =>
    if e == 'e' || e == 'E' then
      let (sign, rest) :=
        match rest with
        | '+' :: rest => (['+'], rest)
        | '-' :: rest => (['-'], rest)
        | _ => ([], rest)
      if (digits rest).1.isEmpty then none
      else some (e :: sign ++ (digits rest).1, (digits rest).2)
    else some ([], cs)
  | [] => some ([], [])

/-- The token of a number without a sign, given whether a minus sign came before it. -/
def scanUnsigned (negative : Bool) (cs : List Char) : Option (Token × List Char) := do
  let (whole, rest) ← scanWhole cs
  let (fraction, rest) ← scanFraction rest
  let (exponent, rest) ← scanExponent rest
  let sign := if negative then ['-'] else []
  if fraction.isEmpty && exponent.isEmpty && !(negative && whole == ['0']) then
    let n := Nat.ofDigitChars 10 whole 0
    return (integer (if negative then -n else n), rest)
  else
    return (real (String.ofList (sign ++ whole ++ fraction ++ exponent)), rest)

def scanNumber : List Char → Option (Token × List Char)
  | '-' :: rest => scanUnsigned true rest
  | cs => scanUnsigned false cs

/-! ## All tokens -/

/-- The blanks that may stand between tokens. -/
def isBlank (c : Char) : Bool := c == ' ' || c == '\t' || c == '\n' || c == '\r'

/-- The token at the front of a text that starts with no blank. -/
def scan : List Char → Option (Token × List Char)
  | '{' :: rest => some (leftBrace, rest)
  | '}' :: rest => some (rightBrace, rest)
  | '[' :: rest => some (leftBracket, rest)
  | ']' :: rest => some (rightBracket, rest)
  | ':' :: rest => some (colon, rest)
  | ',' :: rest => some (comma, rest)
  | 'n' :: 'u' :: 'l' :: 'l' :: rest => some (null, rest)
  | 't' :: 'r' :: 'u' :: 'e' :: rest => some (bool true, rest)
  | 'f' :: 'a' :: 'l' :: 's' :: 'e' :: rest => some (bool false, rest)
  | '"' :: rest => (scanString rest {}).map fun (content, rest) => (string content, rest)
  | cs => scanNumber cs

/-- All tokens of a text, `read` before them, the last one first.  Every token takes at least one
character, so the length of the text is enough fuel. -/
def scanAll : (fuel : Nat) → List Char → (read : List Token) → Option (List Token)
  | _, [], read => some read.reverse
  | 0, _ :: _, _ => none
  | fuel + 1, c :: rest, read =>
    if isBlank c then scanAll fuel rest read
    else
      match scan (c :: rest) with
      | none => none
      | some (token, rest) => scanAll fuel rest (token :: read)

/-- The tokens of a text, if it has any but tokens and blanks. -/
def ofText? (cs : List Char) : Option (List Token) := scanAll cs.length cs []

end Token

end ServiceRegistry.Json
