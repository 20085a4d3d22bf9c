import UriTemplate.Expression.Basic
import UriTemplate.Template.Basic

/-!
The division of a template into literal runs and expressions. An expression begins at the leftmost
opening brace that is followed by at least one character before the next closing brace, and ends at
that closing brace.
-/

namespace UriTemplate

/-- A part of a template, `ε` being what is kept of an expression. -/
inductive Segment (ε : Type)
  | literal (run : Text)
  | expression (content : ε)
deriving DecidableEq

namespace Segment

/-- Behind an opening brace: the body up to the next closing brace, and what follows the brace. An
empty body does not count. -/
def enclosed? (t : Text) : Option (Text × Text) :=
  match t.dropWhile (· ≠ ('}' : CodePoint)) with
  | [] => none
  | _ :: after =>
    match t.takeWhile (· ≠ ('}' : CodePoint)) with
    | [] => none
    | c :: body => some (c :: body, after)

theorem length_lt_of_enclosed? {t body after : Text} (found : enclosed? t = some (body, after)) :
    after.length < t.length := by
  unfold enclosed? at found
  have shorter := (List.dropWhile_sublist (· ≠ ('}' : CodePoint)) (l := t)).length_le
  split at found
  · simp at found
  · rename_i dropped
    rw [dropped] at shorter
    split at found
    · simp at found
    · simp only [Option.some.injEq, Prod.mk.injEq] at found
      rw [← found.2]
      simp only [List.length_cons] at shorter
      omega

theorem eq_append_of_enclosed? {t body after : Text} (found : enclosed? t = some (body, after)) :
    t = body ++ .ofChar '}' :: after := by
  have whole := List.takeWhile_append_dropWhile (p := (· ≠ ('}' : CodePoint))) (l := t)
  unfold enclosed? at found
  split at found
  · simp at found
  · rename_i closing rest dropped
    have isClosing : closing = '}' := by
      have stops := List.head?_dropWhile_not (fun c : CodePoint => decide (c ≠ '}')) t
      rw [dropped] at stops
      simpa using stops
    split at found
    · simp at found
    · rename_i c body taken
      simp only [Option.some.injEq, Prod.mk.injEq] at found
      rw [taken, dropped, isClosing, found.1, found.2] at whole
      exact whole.symm

def prepend {ε : Type} (c : CodePoint) : List (Segment ε) → List (Segment ε)
  | .literal run :: segments => .literal (c :: run) :: segments
  | segments => .literal [c] :: segments

def bodies (t : Text) : List (Segment Text) :=
  match t with
  | [] => []
  | c :: rest =>
    if c = '{' then
      match _found : enclosed? rest with
      | some (body, after) => .expression body :: bodies after
      | none => prepend c (bodies rest)
    else prepend c (bodies rest)
termination_by t.length
decreasing_by
  · have shorter := length_lt_of_enclosed? _found
    simp only [List.length_cons]
    omega
  · simp
  · simp

def written : Segment Text → Text
  | .literal run => run
  | .expression body => .ofChar '{' :: (body ++ [.ofChar '}'])

theorem flatMap_written_prepend (c : CodePoint) (segments : List (Segment Text)) :
    (prepend c segments).flatMap written = c :: segments.flatMap written := by
  unfold prepend
  split <;> simp [written]

theorem flatMap_written_bodies (t : Text) : (bodies t).flatMap written = t := by
  fun_induction bodies t with
  | case1 => rfl
  | case2 rest body after found ih =>
    rw [List.flatMap_cons, ih, eq_append_of_enclosed? found]
    simp [written]
  | case3 rest _ ih => rw [flatMap_written_prepend, ih]
  | case4 c rest _ ih => rw [flatMap_written_prepend, ih]

def read : Segment Text → Except Fault (Segment Expression)
  | .literal run => .ok (.literal run)
  | .expression body => (Expression.ofBody body).map .expression

def expression? {ε : Type} : Segment ε → Option ε
  | .literal _ => none
  | .expression content => some content

end Segment

namespace Template

def bodies (t : Template) : List Text := (Segment.bodies t.text).filterMap Segment.expression?

def segments (t : Template) : Except Fault (List (Segment Expression)) :=
  (Segment.bodies t.text).mapM Segment.read

def expressions (t : Template) : Except Fault (List Expression) :=
  t.segments.map fun segments => segments.filterMap Segment.expression?

def «variables» (t : Template) : Except Fault (List Text) :=
  t.expressions.map fun expressions => expressions.flatMap Expression.names

end Template

end UriTemplate
