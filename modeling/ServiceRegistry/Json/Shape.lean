import ServiceRegistry.Json.Value
import ServiceRegistry.Word

/-!
# Shapes of JSON values

How a value is taken for a word, a text, a choice between names, or the columns of a record.

A record is written as an object, or as an array of its columns in order.  In an object the columns
may come in any order and none may be given twice; in an array the last ones may be left out.
`columns?` gives the columns found, and leaves it to each record which of them it can do without.
-/

namespace ServiceRegistry.Json

def integer? : Json → Option Int
  | .integer n => some n
  | _ => none

def word? : Json → Option Nat
  | .integer n => if 0 ≤ n ∧ n ≤ maxWord then some n.toNat else none
  | _ => none

def signed? : Json → Option Int
  | .integer n => if minSigned ≤ n ∧ n ≤ maxSigned then some n else none
  | _ => none

def text? : Json → Option String
  | .string content => content
  | _ => none

def bool? : Json → Option Bool
  | .bool b => some b
  | _ => none

/-- The items of an array, each read in the same way. -/
def list? (item? : Json → Option α) : Json → Option (List α)
  | .array items => items.mapM item?
  | _ => none

def option? (value? : Json → Option α) : Json → Option (Option α)
  | .null => some none
  | value => (value? value).map some

/-- A name that chooses between alternatives: a string, or an object that gives this name a null. -/
def choice? : Json → Option String
  | .string content => content
  | .object [(key, .null)] => key
  | _ => none

/-- The columns of an object.  No column may be given twice, and other keys are refused when
`closed`. -/
def columnsOfFields? (closed : Bool) (names : List String) (fields : List (Option String × Json)) :
    Option (List (Option Json)) := do
  let fields ← fields.mapM fun (key, value) => key.map (·, value)
  if closed && fields.any fun field => !names.contains field.1 then none
  else if names.any fun name => 1 < (fields.filter fun field => field.1 == name).length then none
  else some (names.map fun name => (fields.find? fun field => field.1 == name).map (·.2))

/-- The columns of a record with these names, each if it is given. -/
def columns? (closed : Bool) (names : List String) : Json → Option (List (Option Json))
  | .object fields => columnsOfFields? closed names fields
  | .array items =>
    if items.length ≤ names.length then
      some (items.map some ++ List.replicate (names.length - items.length) none)
    else none
  | _ => none

/-- All columns of a record with these names; other keys are ignored. -/
def allColumns? (names : List String) (value : Json) : Option (List Json) := do
  (← value.columns? false names).mapM id

end ServiceRegistry.Json
