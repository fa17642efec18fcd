import ServiceRegistry.Toml.Value
import ServiceRegistry.Word

/-!
# Shapes of TOML values

How a value is taken for a number, a text, a choice between names, or the columns of a section.

A section is a table, or an array of its columns in order.  A table may leave out any column but may
hold no other; an array may leave out the last ones, and items past the last column are not looked
at.
-/

namespace ServiceRegistry.Toml

/-- An integer that is at most `greatest`. -/
def upTo? (greatest : Nat) : Toml → Option Nat
  | .integer n => if 0 ≤ n ∧ n ≤ greatest then some n.toNat else none
  | _ => none

def word? : Toml → Option Nat := upTo? maxWord

def halfWord? : Toml → Option Nat := upTo? 4294967295

def text? : Toml → Option String
  | .text content => some content
  | _ => none

/-- A name that chooses between alternatives: a string, or a table that gives this name nothing, be
it an empty table or an empty array. -/
def choice? : Toml → Option String
  | .text content => some content
  | .table [(name, .table [])] => some name
  | .table [(name, .array [])] => some name
  | _ => none

/-- The columns of a section with these names, each if it is given. -/
def columns? (names : List String) : Toml → Option (List (Option Toml))
  | .table entries =>
    if entries.all fun entry => names.contains entry.1 then
      some (names.map fun name => entries.lookup name)
    else none
  | .array items =>
    some ((items.take names.length).map some ++ List.replicate (names.length - items.length) none)
  | _ => none

/-- Reads a column if it is given, and takes the default if it is not. -/
def given? (read? : Toml → Option α) (default : α) : Option Toml → Option α
  | some value => read? value
  | none => some default

end ServiceRegistry.Toml
