import UriTemplate.Text.Json

/-!
JSON documents, as far as a caller needs them who is interested in strings: a document is a string,
some other value, or not well formed. The words `NaN` and `Infinity` count as numbers. What would be
expensive to read is refused: arrays and objects that hold something, nested more than two hundred
deep, and numbers with a very long whole part, whether or not a fraction or an exponent follows it.
-/

namespace UriTemplate.Json

inductive Document
  | string (t : Text)
  | other
deriving DecidableEq

/-- How deep arrays and objects are nested at most, those that hold nothing not counted. -/
def maxDepth : Nat := 200

def maxWholeDigits : Nat := 4300

def isBlank (c : CodePoint) : Bool := c = ' ' || c = '\t' || c = '\n' || c = '\r'

def skipBlanks (t : Text) : Text := t.dropWhile isBlank

def skipDigits (t : Text) : Option Text :=
  if (t.takeWhile CodePoint.isDigit).isEmpty then none else some (t.dropWhile CodePoint.isDigit)

def skipWhole (t : Text) : Option Text :=
  match t with
  | [] => none
  | c :: rest =>
    if c = '0' then if (rest.takeWhile CodePoint.isDigit).isEmpty then some rest else none
    else skipDigits t

def skipFraction (t : Text) : Option Text :=
  match Text.after? "." t with
  | some rest => skipDigits rest
  | none => some t

def skipExponent (t : Text) : Option Text :=
  match t with
  | [] => some t
  | c :: rest =>
    if c = 'e' ∨ c = 'E' then
      match rest with
      | [] => none
      | sign :: digits => if sign = '+' ∨ sign = '-' then skipDigits digits else skipDigits rest
    else some t

def skipMagnitude (t : Text) : Option Text :=
  match Text.after? "Infinity" t with
  | some rest => some rest
  | none => do
    guard ((t.takeWhile CodePoint.isDigit).length ≤ maxWholeDigits)
    let afterWhole ← skipWhole t
    let afterFraction ← skipFraction afterWhole
    skipExponent afterFraction

def skipNumber (t : Text) : Option Text :=
  match Text.after? "-" t with
  | some rest => skipMagnitude rest
  | none => skipMagnitude t

def skipWord (t : Text) : Option Text :=
  (["null", "true", "false", "NaN"] : List Text).findSome? fun word => Text.after? word t

mutual

/-- Reads a value and returns what follows it. Both kinds of fuel run out: `depth` with each array
or object that holds something, `fuel` with each step. -/
def readValue (fuel depth : Nat) (t : Text) : Option (Document × Text) :=
  match fuel with
  | 0 => none
  | fuel + 1 =>
    match skipBlanks t with
    | [] => none
    | c :: rest =>
      if c = '"' then (readString (rest.length + 1) rest).map fun (s, rest) => (.string s, rest)
      else if c = '[' then
        match Text.after? "]" (skipBlanks rest), depth with
        | some rest, _ => some (.other, rest)
        | none, 0 => none
        | none, depth + 1 => (readItems fuel depth rest).map fun rest => (.other, rest)
      else if c = '\x7b' then
        match Text.after? "\x7d" (skipBlanks rest), depth with
        | some rest, _ => some (.other, rest)
        | none, 0 => none
        | none, depth + 1 => (readEntries fuel depth rest).map fun rest => (.other, rest)
      else ((skipWord (c :: rest)).or (skipNumber (c :: rest))).map fun rest => (.other, rest)

def readItems (fuel depth : Nat) (t : Text) : Option Text :=
  match fuel with
  | 0 => none
  | fuel + 1 => do
    let (_, rest) ← readValue fuel depth t
    match Text.after? "," (skipBlanks rest) with
    | some rest => readItems fuel depth rest
    | none => Text.after? "]" (skipBlanks rest)

def readEntries (fuel depth : Nat) (t : Text) : Option Text :=
  match fuel with
  | 0 => none
  | fuel + 1 => do
    let rest ← Text.after? "\"" (skipBlanks t)
    let (_, rest) ← readString (rest.length + 1) rest
    let rest ← Text.after? ":" (skipBlanks rest)
    let (_, rest) ← readValue fuel depth rest
    match Text.after? "," (skipBlanks rest) with
    | some rest => readEntries fuel depth rest
    | none => Text.after? "\x7d" (skipBlanks rest)

end

def read? (t : Text) : Option Document := do
  let (document, rest) ← readValue (2 * t.length + 1) maxDepth t
  guard (skipBlanks rest).isEmpty
  return document

end UriTemplate.Json
