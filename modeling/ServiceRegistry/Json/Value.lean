/-!
# JSON values

A value is the tree that a JSON text spells.  A number is an integer when it is written as one, and
otherwise keeps its spelling.  A string literal whose escapes name half of a surrogate pair spells
no text; it is a value all the same, but one without content.
-/

namespace ServiceRegistry

/-- A JSON value; the fields of an object keep their order and may repeat a key. -/
inductive Json
  | null
  | bool (value : Bool)
  | integer (value : Int)
  /-- A number written with a fraction or an exponent, or as minus zero. -/
  | real (spelling : String)
  | string (content : Option String)
  | array (items : List Json)
  | object (fields : List (Option String × Json))
deriving Repr, Inhabited

namespace Json

def text (content : String) : Json := .string (some content)

def natural (n : Nat) : Json := .integer n

def ofFields (fields : List (String × Json)) : Json :=
  .object (fields.map fun (key, value) => (some key, value))

/-- The value of an optional thing, null in its absence. -/
def ofOption (encode : α → Json) : Option α → Json
  | none => .null
  | some value => encode value

/-- The value of the first field with a key. -/
def field? (value : Json) (key : String) : Option Json :=
  match value with
  | .object fields => (fields.find? fun field => field.1 == some key).map (·.2)
  | _ => none

end Json

end ServiceRegistry
