/-!
# TOML values

The values of a TOML document as far as settings use them: of floats, dates and times it is only
known that they are there.
-/

namespace ServiceRegistry

/-- A TOML value; the entries of a table keep their order, and no key occurs twice. -/
inductive Toml
  | text (content : String)
  | integer (value : Int)
  | bool (value : Bool)
  /-- A float, a date or a time. -/
  | other
  | array (items : List Toml)
  | table (entries : List (String × Toml))
deriving Repr, Inhabited

end ServiceRegistry
