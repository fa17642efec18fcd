/-!
# TOML strings

Strings come in four forms: with escapes or literal, on one line or on several.  Each reader here
starts after the opening quotes and gives the content with what follows the closing ones.
-/

namespace ServiceRegistry.Toml.Quoted

/-- Whether a character may stand for itself in a comment or a string on one line. -/
def isPlain (c : Char) : Bool := c == '\t' || (0x20 ≤ c.toNat && c.toNat != 0x7f)

def hex? (cs : List Char) : Option Nat :=
  cs.foldlM (fun n c =>
    if '0' ≤ c ∧ c ≤ '9' then some (n * 16 + (c.toNat - 48))
    else if 'a' ≤ c ∧ c ≤ 'f' then some (n * 16 + (c.toNat - 87))
    else if 'A' ≤ c ∧ c ≤ 'F' then some (n * 16 + (c.toNat - 55))
    else none) 0

/-- The character with a number, unless the number is of half of a surrogate pair or past the last
character. -/
def char? (cs : List Char) : Option Char := do
  let n ← hex? cs
  if n < 0xd800 || (0xe000 ≤ n && n < 0x110000) then return Char.ofNat n else none

def escape? : Char → Option Char
  | 'b' => some '\x08'
  | 't' => some '\t'
  | 'n' => some '\n'
  | 'f' => some '\x0c'
  | 'r' => some '\r'
  | 'e' => some '\x1b'
  | '"' => some '"'
  | '\\' => some '\\'
  | _ => none

/-- The text of characters read, the last one first. -/
def textOf (read : List Char) : String := String.ofList read.reverse

/-- A string with escapes on one line. -/
def basic : List Char → (read : List Char) → Option (String × List Char)
  | [], _ => none
  | '"' :: rest, read => some (textOf read, rest)
  | '\\' :: 'x' :: a :: b :: rest, read =>
    match char? [a, b] with
    | some c => basic rest (c :: read)
    | none => none
  | '\\' :: 'u' :: a :: b :: c :: d :: rest, read =>
    match char? [a, b, c, d] with
    | some c => basic rest (c :: read)
    | none => none
  | '\\' :: 'U' :: a :: b :: c :: d :: e :: f :: g :: h :: rest, read =>
    match char? [a, b, c, d, e, f, g, h] with
    | some c => basic rest (c :: read)
    | none => none
  | '\\' :: e :: rest, read =>
    match escape? e with
    | some c => basic rest (c :: read)
    | none => none
  | c :: rest, read => if isPlain c then basic rest (c :: read) else none

/-- A literal string on one line. -/
def literal : List Char → (read : List Char) → Option (String × List Char)
  | [], _ => none
  | '\x27' :: rest, read => some (textOf read, rest)
  | c :: rest, read => if isPlain c then literal rest (c :: read) else none

/-- What follows the line break at the front of a text, if there is one. -/
def afterBreak? : List Char → Option (List Char)
  | '\n' :: rest => some rest
  | '\r' :: '\n' :: rest => some rest
  | _ => none

/-- Whether nothing but blanks stands before the next line break. -/
def lineIsOver (cs : List Char) : Bool :=
  (afterBreak? (cs.dropWhile fun c => c == ' ' || c == '\t')).isSome

/-- A string with escapes on several lines.  A backslash at the end of a line drops all blanks and
line breaks up to the next character; `dropping` says that this is going on.  Up to two quotes may
stand just before the closing ones. -/
def multiBasic : List Char → (dropping : Bool) → (read : List Char) → Option (String × List Char)
  | [], _, _ => none
  | '"' :: '"' :: '"' :: '"' :: '"' :: rest, _, read => some (textOf ('"' :: '"' :: read), rest)
  | '"' :: '"' :: '"' :: '"' :: rest, _, read => some (textOf ('"' :: read), rest)
  | '"' :: '"' :: '"' :: rest, _, read => some (textOf read, rest)
  | '\r' :: '\n' :: rest, dropping, read =>
    multiBasic rest dropping (if dropping then read else '\n' :: '\r' :: read)
  | '\n' :: rest, dropping, read => multiBasic rest dropping (if dropping then read else '\n' :: read)
  | '\\' :: 'x' :: a :: b :: rest, _, read =>
    match char? [a, b] with
    | some c => multiBasic rest false (c :: read)
    | none => none
  | '\\' :: 'u' :: a :: b :: c :: d :: rest, _, read =>
    match char? [a, b, c, d] with
    | some c => multiBasic rest false (c :: read)
    | none => none
  | '\\' :: 'U' :: a :: b :: c :: d :: e :: f :: g :: h :: rest, _, read =>
    match char? [a, b, c, d, e, f, g, h] with
    | some c => multiBasic rest false (c :: read)
    | none => none
  | '\\' :: e :: rest, _, read =>
    match escape? e with
    | some c => multiBasic rest false (c :: read)
    | none => if lineIsOver (e :: rest) then multiBasic (e :: rest) true read else none
  | c :: rest, dropping, read =>
    if dropping && (c == ' ' || c == '\t') then multiBasic rest true read
    else if isPlain c then multiBasic rest false (c :: read)
    else none

/-- A literal string on several lines. -/
def multiLiteral : List Char → (read : List Char) → Option (String × List Char)
  | [], _ => none
  | '\x27' :: '\x27' :: '\x27' :: '\x27' :: '\x27' :: rest, read =>
    some (textOf ('\x27' :: '\x27' :: read), rest)
  | '\x27' :: '\x27' :: '\x27' :: '\x27' :: rest, read => some (textOf ('\x27' :: read), rest)
  | '\x27' :: '\x27' :: '\x27' :: rest, read => some (textOf read, rest)
  | '\r' :: '\n' :: rest, read => multiLiteral rest ('\n' :: '\r' :: read)
  | '\n' :: rest, read => multiLiteral rest ('\n' :: read)
  | c :: rest, read => if isPlain c then multiLiteral rest (c :: read) else none

/-- The string at the front of a text, if it starts with a quote.  A line break right after the
opening quotes of several lines is dropped. -/
def value? : List Char → Option (String × List Char)
  | '"' :: '"' :: '"' :: rest => multiBasic ((afterBreak? rest).getD rest) false []
  | '"' :: rest => basic rest []
  | '\x27' :: '\x27' :: '\x27' :: rest => multiLiteral ((afterBreak? rest).getD rest) []
  | '\x27' :: rest => literal rest []
  | _ => none

end ServiceRegistry.Toml.Quoted
