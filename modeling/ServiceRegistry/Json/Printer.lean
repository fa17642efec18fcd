import ServiceRegistry.Json.Token

/-!
# Writing JSON

A value is written without blanks, its fields in their order.  In strings only the quote, the
backslash and control characters are escaped, so a written value never holds a line break.
-/

namespace ServiceRegistry.Json

/-- The digits of a number below 16. -/
def hexChar (n : Nat) : Char := Nat.digitChar n

def escapeChar (c : Char) : List Char :=
  if c = '"' then ['\\', '"']
  else if c = '\\' then ['\\', '\\']
  else if c = '\x08' then ['\\', 'b']
  else if c = '\x0c' then ['\\', 'f']
  else if c = '\n' then ['\\', 'n']
  else if c = '\r' then ['\\', 'r']
  else if c = '\t' then ['\\', 't']
  else if c.toNat < 0x20 then
    ['\\', 'u', '0', '0', hexChar (c.toNat / 16), hexChar (c.toNat % 16)]
  else [c]

def quote (s : String) : List Char := '"' :: s.toList.flatMap escapeChar ++ ['"']

/-- The decimal digits of an integer, after a minus sign if it is negative. -/
def decimal (n : Int) : List Char :=
  if n < 0 then '-' :: Nat.toDigits 10 n.natAbs else Nat.toDigits 10 n.natAbs

def Token.chars : Token → List Char
  | .leftBrace => ['{']
  | .rightBrace => ['}']
  | .leftBracket => ['[']
  | .rightBracket => [']']
  | .colon => [':']
  | .comma => [',']
  | .null => ['n', 'u', 'l', 'l']
  | .bool true => ['t', 'r', 'u', 'e']
  | .bool false => ['f', 'a', 'l', 's', 'e']
  | .integer n => decimal n
  | .real spelling => spelling.toList
  | .string (some s) => quote s
  | .string none => ['"', '\\', 'u', 'd', '8', '0', '0', '"']

mutual

def tokens : Json → List Token
  | null => [.null]
  | bool b => [.bool b]
  | integer n => [.integer n]
  | real s => [.real s]
  | string content => [.string content]
  | array items => .leftBracket :: itemTokens items ++ [.rightBracket]
  | object fields => .leftBrace :: fieldTokens fields ++ [.rightBrace]

/-- The tokens of the items of an array, with commas between them. -/
def itemTokens : List Json → List Token
  | [] => []
  | [item] => item.tokens
  | item :: next :: rest => item.tokens ++ .comma :: itemTokens (next :: rest)

/-- The tokens of the fields of an object, with commas between them. -/
def fieldTokens : List (Option String × Json) → List Token
  | [] => []
  | [(key, value)] => .string key :: .colon :: value.tokens
  | (key, value) :: next :: rest =>
    .string key :: .colon :: value.tokens ++ .comma :: fieldTokens (next :: rest)

end

def toText (value : Json) : String := String.ofList (value.tokens.flatMap Token.chars)

end ServiceRegistry.Json
