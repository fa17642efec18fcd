/-!
# Paths

A path is a text of parts between slashes; lengths are counted in bytes.  Empty parts and single
dots stand for the directory they are in, so `Path.steps` leaves them out.

The main statement, `Path.join_parts`, says that a path is its parts with slashes between them.
-/

namespace ServiceRegistry.Path

/-- The length beyond which a path is refused. -/
def maxLength : Nat := 4096

/-- The length beyond which a part of a path is refused. -/
def maxPartLength : Nat := 255

/-- The runs of characters between slashes. -/
def splitChars : List Char → List (List Char)
  | [] => [[]]
  | c :: cs =>
    if c = '/' then [] :: splitChars cs
    else
      match splitChars cs with
      | [] => [[c]]
      | part :: parts => (c :: part) :: parts

/-- Runs of characters with slashes between them. -/
def joinChars : List (List Char) → List Char
  | [] => []
  | [part] => part
  | part :: next :: rest => part ++ '/' :: joinChars (next :: rest)

theorem splitChars_ne_nil (cs : List Char) : splitChars cs ≠ [] := by
  cases cs with
  | nil => simp [splitChars]
  | cons c cs =>
    rw [splitChars]
    split
    · simp
    · split <;> simp

theorem joinChars_splitChars (cs : List Char) : joinChars (splitChars cs) = cs := by
  induction cs with
  | nil => rfl
  | cons c cs ih =>
    rw [splitChars]
    split
    · next h =>
      subst h
      match hs : splitChars cs with
      | [] => exact absurd hs (splitChars_ne_nil cs)
      | part :: parts => rw [joinChars, ← hs, ih]; rfl
    · split
      · next hs => exact absurd hs (splitChars_ne_nil cs)
      · next part parts hs =>
        rw [hs] at ih
        cases parts with
        | nil => simp only [joinChars] at ih ⊢; rw [ih]
        | cons next rest => simp only [joinChars, List.cons_append] at ih ⊢; rw [ih]

/-- The parts of a path, empty ones too. -/
def parts (path : String) : List String := (splitChars path.toList).map String.ofList

def join (parts : List String) : String := String.ofList (joinChars (parts.map String.toList))

theorem join_parts (path : String) : join (parts path) = path := by
  simp [join, parts, Function.comp_def, joinChars_splitChars]

def isAbsolute (path : String) : Bool := path.toList.head? == some '/'

/-- The parts that lead on from a directory. -/
def steps (path : String) : List String := (parts path).filter fun part => part != "" && part != "."

def ofSteps (absolute : Bool) (steps : List String) : String :=
  if absolute then "/" ++ join steps else join steps

def isLong (path : String) : Bool := maxLength < path.utf8ByteSize

def hasLongPart (path : String) : Bool :=
  (parts path).any fun part => maxPartLength < part.utf8ByteSize

end ServiceRegistry.Path
