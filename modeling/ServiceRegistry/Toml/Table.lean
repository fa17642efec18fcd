import ServiceRegistry.Toml.Value

/-!
# Assembling TOML tables

A document defines its tables piece by piece: by headers, by dotted keys, and as tables on the way
to either.  How a table came about decides what may still be added to it:

* a header defines a table once, and may do so after tables below it have been defined;
* dotted keys only add to tables that dotted keys have made, and never through a table that has a
  header of its own;
* a value, be it an array or an inline table, is complete;
* a header of an array of tables adds an element, and later headers go into the last one.

Every function gives nothing when a rule is broken.
-/

namespace ServiceRegistry.Toml

inductive Origin
  /-- On the way to a table that a header defines. -/
  | implied
  | header
  | dotted
deriving DecidableEq, Repr, Inhabited

inductive Node
  | value (value : Toml)
  | table (origin : Origin) (entries : List (String × Node))
  /-- An array of tables, the last element first. -/
  | tables (elements : List (List (String × Node)))
deriving Inhabited

abbrev Entries : Type := List (String × Node)

namespace Entries

/-- Puts a node in the place of the one with a key. -/
def replace (entries : Entries) (key : String) (node : Node) : Entries :=
  entries.map fun entry => if entry.1 == key then (key, node) else entry

/-- Changes the table that a header's path leads to; tables on the way are made as needed. -/
def underHeader (change : Entries → Option Entries) : List String → Entries → Option Entries
  | [], entries => change entries
  | key :: path, entries =>
    match entries.lookup key with
    | none => do return entries ++ [(key, .table .implied (← underHeader change path []))]
    | some (.table origin below) => do
      return entries.replace key (.table origin (← underHeader change path below))
    | some (.tables (last :: before)) => do
      return entries.replace key (.tables ((← underHeader change path last) :: before))
    | some _ => none

def addValue (key : String) (value : Toml) (entries : Entries) : Option Entries :=
  match entries.lookup key with
  | none => some (entries ++ [(key, .value value)])
  | some _ => none

/-- Adds a value under a dotted key.  The table that gets the value must be one that dotted keys
have made. -/
def addDotted (key : String) (value : Toml) : List String → Entries → Option Entries
  | [], entries => entries.addValue key value
  | part :: path, entries =>
    match entries.lookup part with
    | none => do return entries ++ [(part, .table .dotted (← addDotted key value path []))]
    | some (.table origin below) =>
      if origin = .header ∨ (path = [] ∧ origin = .implied) then none
      else do return entries.replace part (.table origin (← addDotted key value path below))
    | some _ => none

def addPair (path : List String) (value : Toml) (entries : Entries) : Option Entries :=
  match path.reverse with
  | [] => none
  | key :: above => addDotted key value above.reverse entries

/-- Defines a table by its own header. -/
def openTable (key : String) (entries : Entries) : Option Entries :=
  match entries.lookup key with
  | none => some (entries ++ [(key, .table .header [])])
  | some (.table .implied below) => some (entries.replace key (.table .header below))
  | some _ => none

/-- Adds an element to an array of tables. -/
def openElement (key : String) (entries : Entries) : Option Entries :=
  match entries.lookup key with
  | none => some (entries ++ [(key, .tables [[]])])
  | some (.tables elements) => some (entries.replace key (.tables ([] :: elements)))
  | some _ => none

end Entries

mutual

def Node.close : Node → Toml
  | .value v => v
  | .table _ entries => .table (closeEntries entries)
  | .tables elements => .array (closeElements elements).reverse

def closeEntries : List (String × Node) → List (String × Toml)
  | [] => []
  | (key, node) :: rest => (key, node.close) :: closeEntries rest

def closeElements : List (List (String × Node)) → List Toml
  | [] => []
  | entries :: rest => .table (closeEntries entries) :: closeElements rest

end

end ServiceRegistry.Toml
