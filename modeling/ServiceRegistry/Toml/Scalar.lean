import ServiceRegistry.Toml.Value

/-!
# Unquoted TOML scalars

A scalar without quotes is a boolean, an integer, a float, a date or a time, told apart by its
spelling alone.  Integers may be written in four bases, with single underscores between digits;
only decimal ones take a sign, and those start with no zero but for zero itself.
-/

namespace ServiceRegistry.Toml.Scalar

/-! ## Numbers -/

def digit? (base : Nat) (c : Char) : Option Nat :=
  let value? :=
    if '0' ≤ c ∧ c ≤ '9' then some (c.toNat - 48)
    else if 'a' ≤ c ∧ c ≤ 'f' then some (c.toNat - 87)
    else if 'A' ≤ c ∧ c ≤ 'F' then some (c.toNat - 55)
    else none
  value?.filter (· < base)

/-- Digits, with single underscores between them dropped.  `after` says whether a digit came just
before. -/
def underscored? (base : Nat) : (after : Bool) → List Char → Option (List Nat)
  | after, [] => if after then some [] else none
  | true, '_' :: rest => underscored? base false rest
  | false, '_' :: _ => none
  | _, c :: rest => do
    let d ← digit? base c
    return d :: (← underscored? base true rest)

def ofDigits (base : Nat) (digits : List Nat) : Nat :=
  digits.foldl (fun n d => n * base + d) 0

/-- An integer without a sign in decimal digits. -/
def decimal? (cs : List Char) : Option Nat := do
  match ← underscored? 10 false cs with
  | 0 :: _ :: _ => none
  | digits => return ofDigits 10 digits

def afterSign : List Char → List Char
  | '+' :: rest => rest
  | '-' :: rest => rest
  | cs => cs

def integer? (cs : List Char) : Option Int :=
  match cs with
  | '0' :: 'x' :: digits => (underscored? 16 false digits).map fun ds => (ofDigits 16 ds : Int)
  | '0' :: 'o' :: digits => (underscored? 8 false digits).map fun ds => (ofDigits 8 ds : Int)
  | '0' :: 'b' :: digits => (underscored? 2 false digits).map fun ds => (ofDigits 2 ds : Int)
  | '-' :: digits => (decimal? digits).map fun n => -(n : Int)
  | _ => (decimal? (afterSign cs)).map fun n => (n : Int)

/-- Whether digits make an exponent; leading zeros are allowed there. -/
def isExponent (cs : List Char) : Bool := (underscored? 10 false (afterSign cs)).isSome

/-- Whether a text is what may follow the whole part of a float: a fraction, an exponent or both. -/
def isFloatTail : List Char → Bool
  | '.' :: rest =>
    let fraction := rest.takeWhile fun c => c != 'e' && c != 'E'
    (underscored? 10 false fraction).isSome &&
      match rest.drop fraction.length with
      | [] => true
      | _ :: exponent => isExponent exponent
  | e :: exponent => (e == 'e' || e == 'E') && isExponent exponent
  | [] => false

def isFloat (cs : List Char) : Bool :=
  let cs := afterSign cs
  let whole := cs.takeWhile fun c => c != '.' && c != 'e' && c != 'E'
  cs == ['i', 'n', 'f'] || cs == ['n', 'a', 'n'] ||
    ((decimal? whole).isSome && isFloatTail (cs.drop whole.length))

/-! ## Dates and times -/

/-- A number of `count` decimal digits at the front of a text. -/
def fixed? (count : Nat) (cs : List Char) : Option (Nat × List Char) := do
  if cs.length < count then none
  let digits ← (cs.take count).mapM (digit? 10)
  return (ofDigits 10 digits, cs.drop count)

def daysOf (year month : Nat) : Nat :=
  if month == 2 then
    if year % 4 == 0 && (year % 100 != 0 || year % 400 == 0) then 29 else 28
  else if month == 4 || month == 6 || month == 9 || month == 11 then 30
  else 31

/-- What follows a date at the front of a text. -/
def afterDate? (cs : List Char) : Option (List Char) := do
  let (year, rest) ← fixed? 4 cs
  let '-' :: rest := rest | none
  let (month, rest) ← fixed? 2 rest
  let '-' :: rest := rest | none
  let (day, rest) ← fixed? 2 rest
  if 1 ≤ month && month ≤ 12 && 1 ≤ day && day ≤ daysOf year month then return rest else none

/-- What follows the fraction of a second. -/
def afterFraction? : List Char → Option (List Char)
  | '.' :: rest =>
    if rest.head?.any Char.isDigit then some (rest.dropWhile Char.isDigit) else none
  | cs => some cs

/-- What follows a time of day at the front of a text; its seconds may be left out. -/
def afterTime? (cs : List Char) : Option (List Char) := do
  let (hour, rest) ← fixed? 2 cs
  let ':' :: rest := rest | none
  let (minute, rest) ← fixed? 2 rest
  if 23 < hour || 59 < minute then none
  match rest with
  | ':' :: rest =>
    let (second, rest) ← fixed? 2 rest
    if 60 < second then none
    afterFraction? rest
  | _ => return rest

def isOffset : List Char → Bool
  | [] => true
  | ['Z'] => true
  | ['z'] => true
  | sign :: cs =>
    (sign == '+' || sign == '-') &&
      match fixed? 2 cs with
      | some (hour, ':' :: rest) =>
        match fixed? 2 rest with
        | some (minute, []) => hour ≤ 23 && minute ≤ 59
        | _ => false
      | _ => false

def isDateTime (cs : List Char) : Bool :=
  match afterDate? cs with
  | some [] => true
  | some (separator :: time) =>
    (separator == 'T' || separator == 't' || separator == ' ') && (afterTime? time).any isOffset
  | none => afterTime? cs == some []

/-! ## All scalars -/

def value? (cs : List Char) : Option Toml :=
  if cs == ['t', 'r', 'u', 'e'] then some (.bool true)
  else if cs == ['f', 'a', 'l', 's', 'e'] then some (.bool false)
  else
    match integer? cs with
    | some n => some (.integer n)
    | none => if isFloat cs || isDateTime cs then some .other else none

def isChar (c : Char) : Bool :=
  c.isAlphanum || c == '+' || c == '-' || c == '.' || c == ':' || c == '_'

/-- The spelling of the scalar at the front of a text, and what follows.  One blank may stand
between a date and a time. -/
def split (cs : List Char) : List Char × List Char :=
  let spelling := cs.takeWhile isChar
  let rest := cs.dropWhile isChar
  match afterDate? spelling, rest with
  | some [], ' ' :: time =>
    if time.head?.any Char.isDigit then
      (spelling ++ ' ' :: time.takeWhile isChar, time.dropWhile isChar)
    else (spelling, rest)
  | _, _ => (spelling, rest)

end ServiceRegistry.Toml.Scalar
