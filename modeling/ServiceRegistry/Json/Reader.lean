import ServiceRegistry.Json.Token

/-!
# Reading JSON

A text is JSON when its tokens are those of exactly one value.  Commas separate, so none may stand
before a closing bracket.
-/

namespace ServiceRegistry.Json

mutual

/-- The value at the front of a list of tokens.  Every step takes a token, so a fuel greater than
their number is enough. -/
def readValue : (fuel : Nat) → List Token → Option (Json × List Token)
  | 0, _ => none
  | fuel + 1, tokens =>
    match tokens with
    | .null :: rest => some (null, rest)
    | .bool b :: rest => some (bool b, rest)
    | .integer n :: rest => some (integer n, rest)
    | .real s :: rest => some (real s, rest)
    | .string content :: rest => some (string content, rest)
    | .leftBracket :: .rightBracket :: rest => some (array [], rest)
    | .leftBracket :: rest => (readItems fuel rest []).map fun (items, rest) => (array items, rest)
    | .leftBrace :: .rightBrace :: rest => some (object [], rest)
    | .leftBrace :: rest =>
      (readFields fuel rest []).map fun (fields, rest) => (object fields, rest)
    | _ => none

/-- The items of an array up to its closing bracket, `read` before them, the last one first. -/
def readItems : (fuel : Nat) → List Token → (read : List Json) → Option (List Json × List Token)
  | 0, _, _ => none
  | fuel + 1, tokens, read =>
    match readValue fuel tokens with
    | some (item, .comma :: rest) => readItems fuel rest (item :: read)
    | some (item, .rightBracket :: rest) => some ((item :: read).reverse, rest)
    | _ => none

/-- The fields of an object up to its closing brace, `read` before them, the last one first. -/
def readFields : (fuel : Nat) → List Token → (read : List (Option String × Json)) →
    Option (List (Option String × Json) × List Token)
  | 0, _, _ => none
  | fuel + 1, tokens, read =>
    match tokens with
    | .string key :: .colon :: rest =>
      match readValue fuel rest with
      | some (value, .comma :: rest) => readFields fuel rest ((key, value) :: read)
      | some (value, .rightBrace :: rest) => some (((key, value) :: read).reverse, rest)
      | _ => none
    | _ => none

end

/-- The value of a list of tokens that holds exactly one. -/
def ofTokens? (tokens : List Token) : Option Json :=
  match readValue (tokens.length + 1) tokens with
  | some (value, []) => some value
  | _ => none

def ofText? (text : String) : Option Json := do
  ofTokens? (← Token.ofText? text.toList)

end ServiceRegistry.Json
