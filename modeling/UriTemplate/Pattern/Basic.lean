import UriTemplate.Template.Segment

/-!
Extraction patterns. A pattern is a sequence of literal characters and groups, one group for each
variable of a template. It has a source text, in which characters that could be taken for anything
else stand behind a backslash, and a reader that gets the pattern back from its source. The reader
is strict: it refuses an operator outside a group even where a regular expression could have it.
-/

namespace UriTemplate

/-- A group of a marked expression is free: it takes anything but a line break, and may be empty.
One of an unmarked expression is plain: it takes one or more unreserved characters and percent
signs. -/
inductive Token
  | char (c : CodePoint)
  | free
  | plain
deriving DecidableEq

abbrev Pattern := List Token

namespace Token

def freeSource : Text := "(.*)"

def plainSource : Text := "([A-Za-z0-9%_.~\\-]+)"

def special : Text := "()[]\x7b\x7d?*+-|^$\\.&~# \t\n\x0d\x0b\x0c"

def metacharacters : Text := "()[]\x7b\x7d?*+-|^$."

theorem metacharacters_subset_special : metacharacters ⊆ special := by
  decide

theorem special_not_alphanumeric : ∀ c ∈ special, c.isLetter = false ∧ c.isDigit = false := by
  decide

def source : Token → Text
  | char c => if c ∈ special then ['\\', c] else [c]
  | free => freeSource
  | plain => plainSource

end Token

namespace Pattern

def ofExpression (e : Expression) : Pattern :=
  let group : Token := if e.operator = .simple then .plain else .free
  [Token.char e.operator.joiner].intercalate (e.varspecs.map fun _ => [group])

def ofSegment : Segment Expression → Pattern
  | .literal run => run.map Token.char
  | .expression e => ofExpression e

def ofSegments (segments : List (Segment Expression)) : Pattern := segments.flatMap ofSegment

def source (p : Pattern) : Text := p.flatMap Token.source

def isGroup : Token → Bool
  | .char _ => false
  | _ => true

def groups (p : Pattern) : Nat := p.countP isGroup

/-- The first token of a source, and what follows it. A backslash makes the next character a
literal, but with a letter or a digit it would be something else; an opening parenthesis has to
begin one of the two group texts; any other character is a literal if it has no meaning of its own.
The source begins at the given position. -/
def first (position : Nat) (c : CodePoint) (rest : Text) : Except Defect (Token × Text) :=
  if c = '\\' then
    match rest with
    | [] => .error (.danglingEscape position)
    | d :: after =>
      if d.isLetter || d.isDigit then .error (.badEscape position) else .ok (.char d, after)
  else if c = '(' then
    match Text.after? Token.freeSource (c :: rest), Text.after? Token.plainSource (c :: rest) with
    | some after, _ => .ok (.free, after)
    | none, some after => .ok (.plain, after)
    | none, none => .error (.unclosedGroup position)
  else if c ∈ Token.metacharacters then .error (.strayOperator position)
  else .ok (.char c, rest)

theorem length_le_of_first {position : Nat} {c : CodePoint} {rest after : Text} {token : Token}
    (found : first position c rest = .ok (token, after)) : after.length ≤ rest.length := by
  unfold first at found
  split at found
  · split at found
    · simp at found
    · split at found
      · simp at found
      · simp only [Except.ok.injEq, Prod.mk.injEq] at found
        simp [found.2]
  · split at found
    · split at found
      · rename_i whole
        replace whole := Text.eq_append_of_after? whole
        simp only [Except.ok.injEq, Prod.mk.injEq] at found
        have size := congrArg List.length whole
        have nonempty : 0 < Token.freeSource.length := by decide
        simp only [List.length_cons, List.length_append, found.2] at size
        omega
      · rename_i whole
        replace whole := Text.eq_append_of_after? whole
        simp only [Except.ok.injEq, Prod.mk.injEq] at found
        have size := congrArg List.length whole
        have nonempty : 0 < Token.plainSource.length := by decide
        simp only [List.length_cons, List.length_append, found.2] at size
        omega
      · simp at found
    · split at found
      · simp at found
      · simp only [Except.ok.injEq, Prod.mk.injEq] at found
        simp [found.2]

def read (position : Nat) (source : Text) : Except Defect Pattern :=
  match source with
  | [] => .ok []
  | c :: rest =>
    match _found : first position c rest with
    | .error defect => .error defect
    | .ok (token, after) =>
      (read (position + (rest.length + 1 - after.length)) after).map (token :: ·)
termination_by source.length
decreasing_by
  have shorter := length_le_of_first _found
  simp only [List.length_cons]
  omega

theorem first_char (position : Nat) (c : CodePoint) (rest : Text) :
    ∃ d tail, (Token.char c).source ++ rest = d :: tail ∧
      first position d tail = .ok (.char c, rest) := by
  by_cases isSpecial : c ∈ Token.special
  · refine ⟨'\\', c :: rest, by simp [Token.source, isSpecial], ?_⟩
    simp [first, Token.special_not_alphanumeric c isSpecial]
  · refine ⟨c, rest, by simp [Token.source, isSpecial], ?_⟩
    have notBackslash : c ≠ '\\' := by
      rintro rfl
      exact isSpecial (by decide)
    have notOpening : c ≠ '(' := by
      rintro rfl
      exact isSpecial (by decide)
    have notOperator : c ∉ Token.metacharacters :=
      fun operator => isSpecial (Token.metacharacters_subset_special operator)
    simp [first, notBackslash, notOpening, notOperator]

theorem first_free (position : Nat) (rest : Text) :
    first position '(' (Token.freeSource.tail ++ rest) = .ok (.free, rest) := by
  have found := Text.after?_append Token.freeSource rest
  have opened : Token.freeSource ++ rest = .ofChar '(' :: (Token.freeSource.tail ++ rest) := rfl
  rw [opened] at found
  unfold first
  rw [if_neg (by decide), if_pos rfl, found]

theorem first_plain (position : Nat) (rest : Text) :
    first position '(' (Token.plainSource.tail ++ rest) = .ok (.plain, rest) := by
  have found := Text.after?_append Token.plainSource rest
  have opened : Token.plainSource ++ rest = .ofChar '(' :: (Token.plainSource.tail ++ rest) := rfl
  have notFree : Text.after? Token.freeSource (Token.plainSource ++ rest) = none := rfl
  rw [opened] at found notFree
  unfold first
  rw [if_neg (by decide), if_pos rfl, found, notFree]

theorem read_source (p : Pattern) (position : Nat) : read position p.source = .ok p := by
  induction p generalizing position with
  | nil => simp [source, read]
  | cons token p ih =>
    have begun : source (token :: p) = token.source ++ source p := by simp [source]
    have opened : ∃ c rest, token.source ++ source p = c :: rest ∧
        first position c rest = .ok (token, source p) := by
      cases token with
      | char c => exact first_char position c (source p)
      | free => exact ⟨'(', _, rfl, first_free position (source p)⟩
      | plain => exact ⟨'(', _, rfl, first_plain position (source p)⟩
    obtain ⟨c, rest, shape, found⟩ := opened
    rw [begun, shape, read]
    split
    · rename_i failed
      rw [found] at failed
      simp at failed
    · rename_i other after same
      rw [found] at same
      simp only [Except.ok.injEq, Prod.mk.injEq] at same
      rw [← same.1, ← same.2, ih]
      rfl

end Pattern

end UriTemplate
