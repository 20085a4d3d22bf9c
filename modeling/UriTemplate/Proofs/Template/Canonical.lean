import Mathlib.Data.List.TakeWhile
import UriTemplate.Proofs.Fault
import UriTemplate.Template.Segment

/-!
The division of a template is the only canonical one. A sequence of literal runs and bodies is
canonical when no brace of a literal run could begin an expression and nothing could be merged;
among the canonical sequences, each text is written by exactly one.
-/

namespace UriTemplate

namespace Segment

def AfterBraces (property : Text → Prop) (run : Text) : Prop :=
  ∀ before after, run = before ++ .ofChar '{' :: after → property after

def EmptyBraces (run : Text) : Prop :=
  AfterBraces (fun after => after.head? = some (.ofChar '}')) run

/-- Every opening brace is followed at once by a closing one, or by none at all. -/
def InertBraces (run : Text) : Prop :=
  AfterBraces (fun after => after.head? = some (.ofChar '}') ∨ .ofChar '}' ∉ after) run

/-- No literal run is empty, no two of them are neighbours, and a body is a text without closing
braces that is not empty. Only in the last run may a brace stay open. -/
inductive Canonical : List (Segment Text) → Prop
  | nil : Canonical []
  | ending {run} : run ≠ [] → InertBraces run → Canonical [.literal run]
  | literal {run body rest} : run ≠ [] → EmptyBraces run → Canonical (.expression body :: rest) →
      Canonical (.literal run :: .expression body :: rest)
  | expression {body rest} : body ≠ [] → .ofChar '}' ∉ body → Canonical rest →
      Canonical (.expression body :: rest)

theorem afterBraces_nil (property : Text → Prop) : AfterBraces property [] := by
  intro before after split
  simp at split

theorem afterBraces_cons {property : Text → Prop} {c : CodePoint} {run : Text} :
    AfterBraces property (c :: run) ↔
      (c = .ofChar '{' → property run) ∧ AfterBraces property run := by
  constructor
  · intro holds
    refine ⟨?_, ?_⟩
    · rintro rfl
      exact holds [] run rfl
    · rintro before after rfl
      exact holds (c :: before) after rfl
  · rintro ⟨first, later⟩ before after split
    cases before with
    | nil =>
        simp only [List.nil_append, List.cons.injEq] at split
        exact split.2 ▸ first split.1
    | cons d before =>
        simp only [List.cons_append, List.cons.injEq] at split
        exact later before after split.2

theorem AfterBraces.imp {weaker stronger : Text → Prop} {run : Text}
    (implied : ∀ after, stronger after → weaker after) (holds : AfterBraces stronger run) :
    AfterBraces weaker run :=
  fun before after split => implied after (holds before after split)

theorem afterBraces_append {property : Text → Prop} {run rest : Text} :
    AfterBraces property (run ++ rest) ↔
      AfterBraces (fun after => property (after ++ rest)) run ∧ AfterBraces property rest := by
  induction run with
  | nil => simp [afterBraces_nil]
  | cons c run ih => rw [List.cons_append, afterBraces_cons, ih, afterBraces_cons, and_assoc]

theorem afterBraces_of_not_mem {property : Text → Prop} {run : Text}
    (absent : .ofChar '{' ∉ run) : AfterBraces property run := by
  rintro before after rfl
  simp at absent

theorem EmptyBraces.append {run rest : Text} (empty : EmptyBraces run) (inert : InertBraces rest) :
    InertBraces (run ++ rest) := by
  refine afterBraces_append.mpr ⟨empty.imp fun after closing => Or.inl ?_, inert⟩
  rw [List.head?_append, closing]
  rfl

theorem canonical_expression_cons_iff {body : Text} {rest : List (Segment Text)} :
    Canonical (.expression body :: rest) ↔ body ≠ [] ∧ .ofChar '}' ∉ body ∧ Canonical rest := by
  constructor
  · intro canonical
    cases canonical with
    | expression nonempty unclosed canonical => exact ⟨nonempty, unclosed, canonical⟩
  · rintro ⟨nonempty, unclosed, canonical⟩
    exact Canonical.expression nonempty unclosed canonical

theorem canonical_literal_cons_iff {run : Text} {rest : List (Segment Text)} :
    Canonical (.literal run :: rest) ↔ run ≠ [] ∧ Canonical rest ∧
      (rest = [] ∧ InertBraces run ∨
        (∃ body others, rest = .expression body :: others) ∧ EmptyBraces run) := by
  constructor
  · intro canonical
    cases canonical with
    | ending nonempty braces => exact ⟨nonempty, Canonical.nil, Or.inl ⟨rfl, braces⟩⟩
    | literal nonempty braces canonical =>
        exact ⟨nonempty, canonical, Or.inr ⟨⟨_, _, rfl⟩, braces⟩⟩
  · rintro ⟨nonempty, canonical, ⟨rfl, braces⟩ | ⟨⟨body, others, rfl⟩, braces⟩⟩
    · exact Canonical.ending nonempty braces
    · exact Canonical.literal nonempty braces canonical

theorem enclosed?_append {body : Text} (nonempty : body ≠ []) (unclosed : .ofChar '}' ∉ body)
    (after : Text) : enclosed? (body ++ .ofChar '}' :: after) = some (body, after) := by
  have inside : ∀ c ∈ body, decide (c ≠ CodePoint.ofChar '}') = true := by
    intro c member
    have other : c ≠ .ofChar '}' := fun same => unclosed (same ▸ member)
    simpa using other
  obtain ⟨c, body, rfl⟩ := List.exists_cons_of_ne_nil nonempty
  unfold enclosed?
  rw [List.takeWhile_append_of_pos inside, List.dropWhile_append_of_pos inside]
  simp

theorem enclosed?_eq_none_iff {t : Text} :
    enclosed? t = none ↔ t.head? = some (.ofChar '}') ∨ .ofChar '}' ∉ t := by
  constructor
  · intro refused
    by_cases closing : .ofChar '}' ∈ t
    · obtain ⟨body, after, rfl, unclosed⟩ := List.eq_append_cons_of_mem closing
      by_cases empty : body = []
      · subst body
        exact Or.inl rfl
      · rw [enclosed?_append empty unclosed] at refused
        simp at refused
    · exact Or.inr closing
  · rintro (closing | absent)
    · obtain ⟨after, rfl⟩ := List.head?_eq_some_iff.mp closing
      simp [enclosed?]
    · have all : t.dropWhile (· ≠ CodePoint.ofChar '}') = [] := by
        rw [List.dropWhile_eq_nil_iff]
        intro c member
        have other : c ≠ .ofChar '}' := fun same => absent (same ▸ member)
        simpa using other
      unfold enclosed?
      rw [all]

theorem body_of_enclosed? {t body after : Text} (found : enclosed? t = some (body, after)) :
    body ≠ [] ∧ .ofChar '}' ∉ body := by
  have closing : .ofChar '}' ∈ t := by simp [eq_append_of_enclosed? found]
  obtain ⟨first, rest, rfl, unclosed⟩ := List.eq_append_cons_of_mem closing
  by_cases empty : first = []
  · have refused : enclosed? (first ++ .ofChar '}' :: rest) = none :=
      enclosed?_eq_none_iff.mpr (Or.inl (by simp [empty]))
    rw [refused] at found
    simp at found
  · rw [enclosed?_append empty unclosed, Option.some.injEq, Prod.mk.injEq] at found
    rw [← found.1]
    exact ⟨empty, unclosed⟩

theorem bodies_nil : bodies [] = [] := by
  rw [bodies]

theorem bodies_expression {rest body after : Text} (found : enclosed? rest = some (body, after)) :
    bodies (.ofChar '{' :: rest) = .expression body :: bodies after := by
  rw [bodies, if_pos rfl]
  split
  · rename_i other same
    rw [found, Option.some.injEq, Prod.mk.injEq] at same
    rw [same.1, same.2]
  · rename_i refused
    rw [found] at refused
    simp at refused

theorem bodies_literal {c : CodePoint} {rest : Text}
    (inert : c = .ofChar '{' → enclosed? rest = none) :
    bodies (c :: rest) = prepend c (bodies rest) := by
  rw [bodies]
  split
  · rename_i opening
    split
    · rename_i found
      rw [inert opening] at found
      simp at found
    · rfl
  · rfl

theorem canonical_prepend {c : CodePoint} {segments : List (Segment Text)}
    (inert : c = .ofChar '{' → enclosed? (segments.flatMap written) = none)
    (canonical : Canonical segments) : Canonical (prepend c segments) := by
  have refused : c = .ofChar '{' → (segments.flatMap written).head? = some (.ofChar '}') ∨
      .ofChar '}' ∉ segments.flatMap written :=
    fun opening => enclosed?_eq_none_iff.mp (inert opening)
  cases canonical with
  | nil =>
      refine Canonical.ending (by simp) (afterBraces_cons.mpr ⟨?_, afterBraces_nil _⟩)
      simp
  | @ending run nonempty braces =>
      refine Canonical.ending (by simp) (afterBraces_cons.mpr ⟨?_, braces⟩)
      simpa [written] using refused
  | @literal run body rest nonempty braces canonical =>
      refine Canonical.literal (by simp) (afterBraces_cons.mpr ⟨?_, braces⟩) canonical
      intro opening
      rcases refused opening with closing | absent
      · obtain ⟨d, run, rfl⟩ := List.exists_cons_of_ne_nil nonempty
        simpa [written] using closing
      · simp [written] at absent
  | @expression body rest nonempty unclosed canonical =>
      refine Canonical.literal (by simp) (afterBraces_cons.mpr ⟨?_, afterBraces_nil _⟩)
        (Canonical.expression nonempty unclosed canonical)
      intro opening
      rcases refused opening with closing | absent
      · have different : CodePoint.ofChar '{' ≠ .ofChar '}' := by decide
        simp [written, different] at closing
      · simp [written] at absent

theorem canonical_bodies (t : Text) : Canonical (bodies t) := by
  fun_induction bodies t with
  | case1 => exact Canonical.nil
  | case2 rest body after found ih =>
      obtain ⟨nonempty, unclosed⟩ := body_of_enclosed? found
      exact Canonical.expression nonempty unclosed ih
  | case3 rest refused ih =>
      refine canonical_prepend (fun _ => ?_) ih
      rw [flatMap_written_bodies]
      exact refused
  | case4 c rest other ih => exact canonical_prepend (fun opening => absurd opening other) ih

theorem bodies_append {run rest : Text}
    (inert : AfterBraces (fun after => enclosed? (after ++ rest) = none) run) :
    bodies (run ++ rest) = run.foldr prepend (bodies rest) := by
  induction run with
  | nil => rfl
  | cons c run ih =>
      obtain ⟨first, later⟩ := afterBraces_cons.mp inert
      rw [List.cons_append, bodies_literal first, ih later]
      rfl

theorem foldr_prepend {ε : Type} {run : Text} {segments : List (Segment ε)} (nonempty : run ≠ [])
    (apart : ∀ other rest, segments ≠ .literal other :: rest) :
    run.foldr prepend segments = .literal run :: segments := by
  induction run with
  | nil => exact absurd rfl nonempty
  | cons c run ih =>
      by_cases last : run = []
      · subst run
        cases segments with
        | nil => rfl
        | cons segment rest =>
            cases segment with
            | literal other => exact absurd rfl (apart other rest)
            | expression content => rfl
      · rw [List.foldr_cons, ih last]
        rfl

theorem EmptyBraces.refused {run : Text} (braces : EmptyBraces run) (rest : Text) :
    AfterBraces (fun after => enclosed? (after ++ rest) = none) run := by
  refine braces.imp (fun after closing => enclosed?_eq_none_iff.mpr (Or.inl ?_))
  rw [List.head?_append, closing]
  rfl

theorem InertBraces.refused {run : Text} (braces : InertBraces run) :
    AfterBraces (fun after => enclosed? (after ++ []) = none) run :=
  braces.imp fun after refused => by rwa [List.append_nil, enclosed?_eq_none_iff]

theorem bodies_flatMap_written {segments : List (Segment Text)} (canonical : Canonical segments) :
    bodies (segments.flatMap written) = segments := by
  induction canonical with
  | nil => exact bodies_nil
  | @ending run nonempty braces =>
      simp only [List.flatMap_cons, List.flatMap_nil, written]
      rw [bodies_append braces.refused, bodies_nil]
      exact foldr_prepend nonempty (by simp)
  | @literal run body rest nonempty braces canonical ih =>
      rw [List.flatMap_cons, written, bodies_append (braces.refused _), ih]
      exact foldr_prepend nonempty (by simp)
  | @expression body rest nonempty unclosed canonical ih =>
      have shape : (Segment.expression body :: rest).flatMap written =
          .ofChar '{' :: (body ++ .ofChar '}' :: rest.flatMap written) := by
        simp [written]
      rw [shape, bodies_expression (enclosed?_append nonempty unclosed _), ih]

theorem canonical_iff {t : Text} {segments : List (Segment Text)} :
    segments.flatMap written = t ∧ Canonical segments ↔ segments = bodies t := by
  constructor
  · rintro ⟨rfl, canonical⟩
    exact (bodies_flatMap_written canonical).symm
  · rintro rfl
    exact ⟨flatMap_written_bodies t, canonical_bodies t⟩

end Segment

theorem Expression.body_of_ofBody {body : Text} {e : Expression}
    (made : Expression.ofBody body = .ok e) : e.body = body := by
  unfold Expression.ofBody at made
  cases listed : (Text.splitOn ',' (operatorAndList body).2).mapM Varspec.ofText with
  | error fault => simp [listed, bind, Except.bind] at made
  | ok varspecs =>
      simp only [listed, bind, Except.bind, pure, Except.pure, Except.ok.injEq] at made
      rw [← made]

namespace Segment

def raw : Segment Expression → Segment Text
  | .literal run => .literal run
  | .expression e => .expression e.body

def Parsed : Segment Expression → Prop
  | .literal _ => True
  | .expression e => Expression.ofBody e.body = .ok e

def expressions (segments : List (Segment Expression)) : List Expression :=
  segments.filterMap expression?

def names (segments : List (Segment Expression)) : List Text :=
  (expressions segments).flatMap Expression.names

@[simp] theorem expressions_nil : expressions [] = [] := rfl

@[simp] theorem expressions_literal_cons (run : Text) (segments : List (Segment Expression)) :
    expressions (.literal run :: segments) = expressions segments := rfl

@[simp] theorem expressions_expression_cons (e : Expression) (segments : List (Segment Expression)) :
    expressions (.expression e :: segments) = e :: expressions segments := rfl

theorem mem_expressions_iff {e : Expression} {segments : List (Segment Expression)} :
    e ∈ expressions segments ↔ .expression e ∈ segments := by
  induction segments with
  | nil => simp
  | cons segment segments ih => cases segment <;> simp [ih]

theorem forall_parsed_iff {segments : List (Segment Expression)} :
    (∀ segment ∈ segments, segment.Parsed) ↔
      ∀ e ∈ expressions segments, Expression.ofBody e.body = .ok e := by
  constructor
  · intro parsed e member
    exact parsed (.expression e) (mem_expressions_iff.mp member)
  · intro each segment member
    cases segment with
    | literal run => trivial
    | expression e => exact each e (mem_expressions_iff.mpr member)

theorem read_eq_ok_iff {segment : Segment Text} {result : Segment Expression} :
    read segment = .ok result ↔ segment = result.raw ∧ result.Parsed := by
  constructor
  · intro made
    cases segment with
    | literal run =>
        simp only [read, Except.ok.injEq] at made
        rw [← made]
        exact ⟨rfl, trivial⟩
    | expression body =>
        cases found : Expression.ofBody body with
        | error fault => simp [read, found, Except.map] at made
        | ok e =>
            simp only [read, found, Except.map, Except.ok.injEq] at made
            have same := Expression.body_of_ofBody found
            rw [← made]
            refine ⟨by rw [raw, same], ?_⟩
            rw [Parsed, same]
            exact found
  · rintro ⟨rfl, parsed⟩
    cases result with
    | literal run => rfl
    | expression e =>
        rw [Parsed] at parsed
        simp [raw, read, parsed, Except.map]

theorem mapM_read_eq_ok_iff {sequence : List (Segment Text)} {segments : List (Segment Expression)} :
    sequence.mapM read = .ok segments ↔
      sequence = segments.map raw ∧ ∀ segment ∈ segments, segment.Parsed := by
  rw [mapM_eq_ok_iff]
  constructor
  · intro pairs
    induction pairs with
    | nil => simp
    | cons made others ih =>
        obtain ⟨same, parsed⟩ := read_eq_ok_iff.mp made
        rw [List.map_cons, ← ih.1, ← same, List.forall_mem_cons]
        exact ⟨rfl, parsed, ih.2⟩
  · rintro ⟨rfl, parsed⟩
    rw [List.forall₂_map_left_iff, List.forall₂_same]
    exact fun segment member => read_eq_ok_iff.mpr ⟨rfl, parsed segment member⟩

end Segment

namespace Template

theorem segments_eq_ok_iff {t : Template} {segments : List (Segment Expression)} :
    t.segments = .ok segments ↔
      Segment.bodies t.text = segments.map Segment.raw ∧ ∀ segment ∈ segments, segment.Parsed :=
  Segment.mapM_read_eq_ok_iff

theorem bodies_eq {t : Template} {segments : List (Segment Expression)}
    (parsed : t.segments = .ok segments) :
    t.bodies = (Segment.expressions segments).map Expression.body := by
  rw [bodies, (segments_eq_ok_iff.mp parsed).1]
  clear parsed
  induction segments with
  | nil => rfl
  | cons segment segments ih =>
      cases segment with
      | literal run => exact ih
      | expression e =>
          rw [List.map_cons, Segment.raw, List.filterMap_cons_some (by rfl), ih]
          rfl

theorem variables_eq {t : Template} {segments : List (Segment Expression)}
    (parsed : t.segments = .ok segments) : t.variables = .ok (Segment.names segments) := by
  simp only [Template.variables, expressions, parsed, Except.map]
  rfl

theorem exists_segments {t : Template} {names : List Text} (listed : t.variables = .ok names) :
    ∃ segments, t.segments = .ok segments ∧ names = Segment.names segments := by
  cases parsed : t.segments with
  | error fault => simp [Template.variables, expressions, parsed, Except.map] at listed
  | ok segments =>
      rw [variables_eq parsed, Except.ok.injEq] at listed
      exact ⟨segments, rfl, listed.symm⟩

/-- A template that parses has one division into non-empty runs and bodies in which no brace is left
over that could begin an expression, and its expressions are what those bodies are read as. -/
theorem segments_canonical (t : Template) (segments : List (Segment Expression))
    (parsed : t.segments = .ok segments) :
    (∀ sequence : List (Segment Text),
      sequence.flatMap Segment.written = t.text ∧ Segment.Canonical sequence ↔
        sequence = segments.map Segment.raw) ∧
    (∀ e ∈ Segment.expressions segments, Expression.ofBody e.body = .ok e) ∧
    t.bodies = (Segment.expressions segments).map Expression.body := by
  obtain ⟨divided, made⟩ := segments_eq_ok_iff.mp parsed
  refine ⟨?_, ?_, bodies_eq parsed⟩
  · intro sequence
    rw [← divided]
    exact Segment.canonical_iff
  · intro e member
    exact made (.expression e) (Segment.mem_expressions_iff.mp member)

theorem segments_canonical_braces :
    (⟨"\x7b\x7d\x7b\x7ba\x7db\x7b+c:3*\x7d\x7d\x7bd"⟩ : Template).segments =
      .ok [.literal "\x7b\x7d", .expression ⟨"\x7ba", .simple, [⟨"\x7ba", false, none⟩]⟩, .literal "b",
        .expression ⟨"+c:3*", .reserved, [⟨"c", true, some 3⟩]⟩, .literal "\x7d\x7bd"] ∧
    ∀ sequence : List (Segment Text),
      sequence.flatMap Segment.written = "\x7b\x7d\x7b\x7ba\x7db\x7b+c:3*\x7d\x7d\x7bd" ∧
          Segment.Canonical sequence ↔
        sequence = [.literal "\x7b\x7d", .expression "\x7ba", .literal "b", .expression "+c:3*",
          .literal "\x7d\x7bd"] := by
  refine ⟨?parsed, (segments_canonical _ _ ?parsed).1⟩
  cbv

end Template

end UriTemplate
