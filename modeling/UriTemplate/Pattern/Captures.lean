import UriTemplate.Pattern.Basic

/-!
Matching a whole text against a pattern. Each group takes as much as it can, the leftmost group
first. The captures are found for all suffixes of the text at once, from the last token of the
pattern to the first, so the work is proportional to the text times the pattern.
-/

namespace UriTemplate.Pattern

def isFree (c : CodePoint) : Bool := c ≠ '\n'

def isPlain (c : CodePoint) : Bool :=
  c.isLetter || c.isDigit || c = '%' || c = '_' || c = '.' || c = '~' || c = '-'

/-- For each suffix of a text, the longest first: what the groups capture when the suffix is
matched, if it is matched. -/
abbrev Column := List (Option (List Text))

namespace Column

def here (column : Column) : Option (List Text) := column.headD none

def extend (c : CodePoint) : Option (List Text) → Option (List Text)
  | some (group :: groups) => some ((c :: group) :: groups)
  | _ => none

def finish : Text → Column
  | [] => [some []]
  | _ :: rest => none :: finish rest

def char (literal : CodePoint) : Text → Column → Column
  | [], _ => [none]
  | c :: rest, column =>
    (if c = literal then here column.tail else none) :: char literal rest column.tail

/-- A free group in front: the longest choice is the longest one at the next character with this
character added, and the last resort is to take nothing. -/
def free : Text → Column → Column
  | [], column => [(here column).map ([] :: ·)]
  | c :: rest, column =>
    let longer := free rest column.tail
    ((if isFree c then extend c (here longer) else none).or ((here column).map ([] :: ·))) :: longer

def plain : Text → Column → Column
  | [], _ => [none]
  | c :: rest, column =>
    -- The last resort is to take one character, not none.
    let longer := plain rest column.tail
    (if isPlain c then (extend c (here longer)).or ((here column.tail).map ([c] :: ·)) else none) ::
      longer

end Column

def column : Pattern → Text → Column
  | [], t => Column.finish t
  | .char c :: p, t => Column.char c t (column p t)
  | .free :: p, t => Column.free t (column p t)
  | .plain :: p, t => Column.plain t (column p t)

theorem tail_column (p : Pattern) (c : CodePoint) (t : Text) :
    (column p (c :: t)).tail = column p t := by
  induction p with
  | nil => rfl
  | cons token p ih =>
    cases token <;> simp [column, Column.char, Column.free, Column.plain, ih]

def captures? (p : Pattern) (t : Text) : Option (List Text) := (column p t).here

end UriTemplate.Pattern
