import ServiceRegistry.Toml.Quoted
import ServiceRegistry.Toml.Scalar
import ServiceRegistry.Toml.Table

/-!
# TOML documents

A document is read line by line.  A line is a pair of a key and a value, the header of a table, or
the header of an element of an array of tables; blanks and comments may stand around them.  Arrays
and inline tables may run over several lines and end with a comma.

`ofText?` gives the table that a document spells, if it is well-formed.
-/

namespace ServiceRegistry.Toml

/-! ## Blanks and comments -/

def isBlank (c : Char) : Bool := c == ' ' || c == '\t'

def skipBlanks (cs : List Char) : List Char := cs.dropWhile isBlank

def skipLines : (inComment : Bool) → List Char → Option (List Char)
  | _, [] => some []
  | _, '\n' :: rest => skipLines false rest
  | _, '\r' :: '\n' :: rest => skipLines false rest
  | true, c :: rest => if Quoted.isPlain c then skipLines true rest else none
  | false, '#' :: rest => skipLines true rest
  | false, c :: rest => if isBlank c then skipLines false rest else some (c :: rest)

/-- Whether a line is over: a comment, a line break or the end of the text comes next. -/
def atLineEnd (cs : List Char) : Bool :=
  match cs with
  | [] => true
  | '#' :: _ => true
  | _ => (Quoted.afterBreak? cs).isSome

/-! ## Keys -/

def isKeyChar (c : Char) : Bool := c.isAlphanum || c == '_' || c == '-'

def readPart (cs : List Char) : Option (String × List Char) :=
  match cs with
  | '"' :: rest => Quoted.basic rest []
  | '\x27' :: rest => Quoted.literal rest []
  | _ =>
    let part := cs.takeWhile isKeyChar
    if part.isEmpty then none else some (String.ofList part, cs.dropWhile isKeyChar)

/-- The parts of a key, blanks around the dots between them skipped.  Every part takes a
character. -/
def readPath : (fuel : Nat) → List Char → Option (List String × List Char)
  | 0, _ => none
  | fuel + 1, cs => do
    let (part, rest) ← readPart (skipBlanks cs)
    match skipBlanks rest with
    | '.' :: rest =>
      let (path, rest) ← readPath fuel rest
      return (part :: path, rest)
    | rest => return ([part], rest)

/-! ## Values -/

mutual

/-- The value at the front of a text.  Every step takes a character. -/
def readValue : (fuel : Nat) → List Char → Option (Toml × List Char)
  | 0, _ => none
  | fuel + 1, cs =>
    match cs with
    | '[' :: rest => (readItems fuel rest []).map fun (items, rest) => (.array items, rest)
    | '{' :: rest => (readPairs fuel rest []).map fun (entries, rest) => (.table entries, rest)
    | '"' :: _ => (Quoted.value? cs).map fun (content, rest) => (.text content, rest)
    | '\x27' :: _ => (Quoted.value? cs).map fun (content, rest) => (.text content, rest)
    | _ =>
      let (spelling, rest) := Scalar.split cs
      (Scalar.value? spelling).map fun value => (value, rest)

/-- The items of an array up to its closing bracket, `read` before them, the last one first. -/
def readItems : (fuel : Nat) → List Char → (read : List Toml) → Option (List Toml × List Char)
  | 0, _, _ => none
  | fuel + 1, cs, read =>
    match skipLines false cs with
    | none => none
    | some (']' :: rest) => some (read.reverse, rest)
    | some rest =>
      match readValue fuel rest with
      | none => none
      | some (item, rest) =>
        match skipLines false rest with
        | some (',' :: rest) => readItems fuel rest (item :: read)
        | some (']' :: rest) => some ((item :: read).reverse, rest)
        | _ => none

/-- The entries of an inline table up to its closing brace, added to `entries`. -/
def readPairs : (fuel : Nat) → List Char → (entries : Entries) →
    Option (List (String × Toml) × List Char)
  | 0, _, _ => none
  | fuel + 1, cs, entries =>
    match skipLines false cs with
    | none => none
    | some ('}' :: rest) => some (closeEntries entries, rest)
    | some rest =>
      match readPath fuel rest with
      | some (path, '=' :: rest) =>
        match readValue fuel (skipBlanks rest) with
        | none => none
        | some (value, rest) =>
          match entries.addPair path value, skipLines false rest with
          | some entries, some (',' :: rest) => readPairs fuel rest entries
          | some entries, some ('}' :: rest) => some (closeEntries entries, rest)
          | _, _ => none
      | _ => none

end

/-! ## Lines -/

/-- A document under assembly, and the path of the table that pairs go into. -/
structure Draft where
  root : Entries := []
  current : List String := []
deriving Inhabited

def readHeader (fuel : Nat) (cs : List Char) (draft : Draft) : Option (Draft × List Char) := do
  let (path, rest) ← readPath fuel cs
  let key ← path.getLast?
  let ']' :: rest := rest | none
  let root ← draft.root.underHeader (·.openTable key) path.dropLast
  return (⟨root, path⟩, rest)

/-- Reads the header of an element of an array of tables. -/
def readElementHeader (fuel : Nat) (cs : List Char) (draft : Draft) :
    Option (Draft × List Char) := do
  let (path, rest) ← readPath fuel cs
  let key ← path.getLast?
  let ']' :: ']' :: rest := rest | none
  let root ← draft.root.underHeader (·.openElement key) path.dropLast
  return (⟨root, path⟩, rest)

def readPair (fuel : Nat) (cs : List Char) (draft : Draft) : Option (Draft × List Char) := do
  let (path, rest) ← readPath fuel cs
  let '=' :: rest := rest | none
  let (value, rest) ← readValue fuel (skipBlanks rest)
  let root ← draft.root.underHeader (·.addPair path value) draft.current
  return ({ draft with root := root }, rest)

/-- Reads one line that holds more than blanks and comments. -/
def readLine (fuel : Nat) (cs : List Char) (draft : Draft) : Option (Draft × List Char) :=
  match cs with
  | '[' :: '[' :: rest => readElementHeader fuel rest draft
  | '[' :: rest => readHeader fuel rest draft
  | _ => readPair fuel cs draft

/-- Reads all lines.  Every line takes a character. -/
def readLines : (fuel : Nat) → List Char → Draft → Option Draft
  | 0, _, _ => none
  | fuel + 1, cs, draft =>
    match skipLines false cs with
    | none => none
    | some [] => some draft
    | some (c :: rest) =>
      match readLine (rest.length + 2) (c :: rest) draft with
      | none => none
      | some (draft, rest) =>
        let rest := skipBlanks rest
        if atLineEnd rest then readLines fuel rest draft else none

/-- The entries of the table that a document spells.  A byte order mark at its front is skipped. -/
def ofText? (text : String) : Option (List (String × Toml)) :=
  let cs :=
    match text.toList with
    | '\ufeff' :: rest => rest
    | cs => cs
  (readLines (cs.length + 1) cs {}).map fun draft => closeEntries draft.root

end ServiceRegistry.Toml
