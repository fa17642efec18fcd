import ServiceRegistry.CommandLine.Command
import ServiceRegistry.Word

/-!
# Arguments

A command is given by words: subcommands lead down a tree, and options, each at most once, may
stand between them.  An option's value follows it, after an equals sign or as the next word, and a
word that looks like an option is no value.  One option may stand at every level, and the innermost
one counts: the path of the settings.

`Arguments.read` reads the words of a command.  Words are read from left to right, so what comes
first, a mistake or a question about usage or version, decides.
-/

namespace ServiceRegistry.Arguments

/-- Why words are no command. -/
inductive Detour
  | misuse
  | help
  | version
deriving DecidableEq, Repr, Inhabited

/-! ## Words -/

/-- A word by its look. -/
inductive Look
  /-- Two dashes and a name, and the value after an equals sign if there is one. -/
  | long (name : String) (value : Option String)
  /-- One dash and letters. -/
  | short (letters : List Char)
  /-- Two dashes alone. -/
  | escape
  | plain (text : String)
deriving DecidableEq, Repr, Inhabited

def Look.of (word : String) : Look :=
  match word.toList with
  | ['-', '-'] => .escape
  | '-' :: '-' :: rest =>
    let name := String.ofList (rest.takeWhile (· ≠ '='))
    match rest.dropWhile (· ≠ '=') with
    | _ :: value => .long name (some (String.ofList value))
    | [] => .long name none
  | '-' :: letter :: rest => .short (letter :: rest)
  | _ => .plain word

/-! ## Values -/

/-- The digits of a number, in base ten and at least one. -/
def digits? (cs : List Char) : Option Nat :=
  if !cs.isEmpty && cs.all Char.isDigit then
    some (cs.foldl (fun n c => 10 * n + (c.toNat - '0'.toNat)) 0)
  else none

/-- A word as a number of 64 bits; a plus sign may stand before it. -/
def number? (text : String) : Option Nat := do
  let n ← digits? <|
    match text.toList with
    | '+' :: rest => rest
    | cs => cs
  if n ≤ maxWord then some n else none

def sortKey? : String → Option SortKey
  | "date" => some .created
  | "name" => some .name
  | _ => none

/-- What kind of value an option takes. -/
inductive ValueKind
  /-- None: the option is there or it is not. -/
  | flag
  | text
  /-- A text that is not empty. -/
  | path
  | number
  | sortKey
deriving DecidableEq, Repr, Inhabited

def ValueKind.accepts : ValueKind → String → Bool
  | .flag, _ => false
  | .text, _ => true
  | .path, value => value != ""
  | .number, value => (number? value).isSome
  | .sortKey, value => (sortKey? value).isSome

/-! ## Trees of subcommands -/

structure OptionRule where
  name : String
  kind : ValueKind
deriving DecidableEq, Repr, Inhabited

/-- The options given at one level, with their values. -/
abbrev Given : Type := List (String × String)

/-- What may follow at a level. -/
inductive Level
  | branch (choices : List (String × Level))
  /-- These options, from which a command is made unless a required one is missing. -/
  | leaf (rules : List OptionRule) (command? : Given → Option Command)

namespace Level

def settingsRule : OptionRule := ⟨"config", .path⟩

def rules : Level → List OptionRule
  | branch _ => [settingsRule]
  | leaf rules _ => settingsRule :: rules

def below? (name : String) : Level → Option Level
  | branch choices => choices.lookup name
  | leaf .. => none

/-- The command of a level at which words end. -/
def finish (given : Given) : Level → Except Detour Command
  | branch _ => .error .misuse
  | leaf _ command? =>
    match command? given with
    | some command => .ok command
    | none => .error .misuse

end Level

def addValue (given : Given) (rule : OptionRule) (value : String) : Except Detour Given :=
  if rule.kind.accepts value && (given.lookup rule.name).isNone then
    .ok ((rule.name, value) :: given)
  else .error .misuse

def addFlag (given : Given) (rule : OptionRule) : Except Detour Given :=
  if (given.lookup rule.name).isNone then .ok ((rule.name, "") :: given) else .error .misuse

/-- Reads the words from a level on.  `outer` is the path of the settings given at the levels
above, and `pending` an option that waits for its value. -/
def readFrom (top : Bool) (outer : Option String) (level : Level) (given : Given)
    (pending : Option OptionRule) : List String → Except Detour (Option String × Command)
  | [] =>
    match pending with
    | some _ => .error .misuse
    | none => do return (given.lookup "config" <|> outer, ← level.finish given)
  | word :: words =>
    match pending, Look.of word with
    | some rule, .plain value => do
      readFrom top outer level (← addValue given rule value) none words
    | some _, _ => .error .misuse
    | none, .plain name =>
      match level.below? name with
      | some below => readFrom false (given.lookup "config" <|> outer) below [] none words
      | none => .error .misuse
    | none, .escape =>
      if words.isEmpty then do return (given.lookup "config" <|> outer, ← level.finish given)
      else .error .misuse
    | none, .short letters =>
      if letters.head? = some 'h' then .error .help
      else if top && letters.head? = some 'V' then .error .version
      else .error .misuse
    | none, .long name value =>
      if name = "help" ∧ value = none then .error .help
      else if top ∧ name = "version" ∧ value = none then .error .version
      else
        match level.rules.find? (·.name == name), value with
        | none, _ => .error .misuse
        | some rule, some value => do
          readFrom top outer level (← addValue given rule value) none words
        | some rule, none =>
          if rule.kind = .flag then do
            readFrom top outer level (← addFlag given rule) none words
          else readFrom top outer level given (some rule) words

/-! ## The commands of the program -/

namespace Given

def text? (given : Given) (name : String) : Option String := given.lookup name

def textOr (given : Given) (name default : String) : String := (given.text? name).getD default

def number? (given : Given) (name : String) : Option Nat :=
  (given.text? name).bind Arguments.number?

def numberOr (given : Given) (name : String) (default : Nat) : Nat :=
  (given.number? name).getD default

def sortKeyOr (given : Given) (name : String) (default : SortKey) : SortKey :=
  ((given.text? name).bind sortKey?).getD default

def flag (given : Given) (name : String) : Bool := (given.text? name).isSome

end Given

def recordLeaf (rules : List OptionRule) (command? : Given → Option RecordCommand) : Level :=
  .leaf rules fun given => (command? given).map .records

def serviceLevel : Level :=
  .branch [
    ("add", recordLeaf [⟨"name", .text⟩, ⟨"description", .text⟩] fun given => do
      return .addService (← given.text? "name") (given.textOr "description" "")),
    ("update", recordLeaf [⟨"id", .number⟩, ⟨"name", .text⟩, ⟨"description", .text⟩]
      fun given => do
        return .updateService (← given.number? "id") (← given.text? "name")
          (given.textOr "description" "")),
    ("remove", recordLeaf [⟨"id", .number⟩] fun given => do
      return .removeService (← given.number? "id")),
    ("get", recordLeaf [⟨"id", .number⟩] fun given => do
      return .getService (← given.number? "id")),
    ("list", recordLeaf [⟨"page", .number⟩, ⟨"page-size", .number⟩, ⟨"sort-by", .sortKey⟩,
        ⟨"inverted", .flag⟩, ⟨"name", .text⟩] fun given =>
      some (.listServices (given.numberOr "page" 1) (given.number? "page-size")
        (given.sortKeyOr "sort-by" .created) (given.flag "inverted") (given.textOr "name" "")))]

def versionRules : List OptionRule :=
  [⟨"service-id", .number⟩, ⟨"tag", .text⟩, ⟨"info", .text⟩]

def versionLevel : Level :=
  .branch [
    ("add", recordLeaf versionRules fun given => do
      return .addVersion (← given.number? "service-id") (← given.text? "tag")
        (given.textOr "info" "")),
    ("update", recordLeaf versionRules fun given => do
      return .updateVersion (← given.number? "service-id") (← given.text? "tag")
        (given.textOr "info" "")),
    ("remove", recordLeaf [⟨"service-id", .number⟩, ⟨"tag", .text⟩] fun given => do
      return .removeVersion (← given.number? "service-id") (← given.text? "tag")),
    ("list", recordLeaf [⟨"service-id", .number⟩, ⟨"page", .number⟩, ⟨"page-size", .number⟩]
      fun given => do
        return .listVersions (← given.number? "service-id") (given.numberOr "page" 1)
          (given.number? "page-size"))]

def topLevel : Level :=
  .branch [
    ("serve", .leaf [] fun _ => some .serve),
    ("config", .branch [("validate", .leaf [] fun _ => some .checkSettings)]),
    ("service", serviceLevel),
    ("version", versionLevel)]

/-- The command that words spell, and the path of the settings if they name one. -/
def read (words : List String) : Except Detour (Option String × Command) :=
  readFrom true none topLevel [] none words

end ServiceRegistry.Arguments
