import UriTemplate.Proofs.Expansion.Pieces

/-!
What an expansion can be made of. Names, values and keys are percent-encoded, so behind the lead
there are only plain characters and escapes with upper-case digits: unreserved characters, the
reserved ones that the operator allows, and its delimiters. All of them can be printed and none of
them is a brace, and no value of a path segment has a slash of its own.
-/

namespace UriTemplate

/-- Printable ASCII without the space, quotes, backslashes, angle brackets and braces. -/
def CodePoint.isHarmless (c : CodePoint) : Bool :=
  0x20 < c.value && c.value < 0x7f && !("\"\\<>\x7b\x7d" : Text).contains c

namespace Operator

def alphabet (op : Operator) (c : CodePoint) : Bool :=
  Percent.isUnreserved c || c = '%' || op.allowed.contains c || c = ',' || c = '=' ||
    c = op.joiner || op.lead.contains c

def Writes (op : Operator) (t : Text) : Prop := ∀ c ∈ t, op.alphabet c = true

def plain (op : Operator) (c : CodePoint) : Bool :=
  Percent.isUnreserved c || op.allowed.contains c || c = ',' || c = '=' || c = op.joiner

abbrev Tidy (op : Operator) (t : Text) : Prop := Percent.WellEscaped op.plain t

variable {op : Operator}

theorem plain_delimiter (op : Operator) :
    op.plain ',' = true ∧ op.plain '=' = true ∧ op.plain op.joiner = true := by
  cases op <;> decide

theorem plain_percent (op : Operator) : op.plain '%' = false := by
  cases op <;> decide

theorem percent_not_mem_lead (op : Operator) : .ofChar '%' ∉ op.lead := by
  cases op <;> decide

theorem tidy_encode (op : Operator) (t : Text) : op.Tidy (op.encode t) := by
  refine Percent.wellEscaped_encode ?_ ?_ t
  · intro c unreserved
    simp [plain, unreserved]
  · intro c allowed
    simp [plain, allowed]

theorem composes_tidy (op : Operator) : op.Composes op.Tidy where
  empty := .nil
  encoded := op.tidy_encode
  comma := .singleton op.plain_delimiter.1
  equalsSign := .singleton op.plain_delimiter.2.1
  append := .append

theorem tidy_pieces (op : Operator) {pieces : List Text} (each : ∀ piece ∈ pieces, op.Tidy piece) :
    op.Tidy (Text.joined [op.joiner] pieces) :=
  op.composes_tidy.joined (.singleton op.plain_delimiter.2.2) each

theorem alphabet_of_plain {c : CodePoint} (itself : op.plain c = true) : op.alphabet c = true := by
  simp only [plain, Bool.or_eq_true] at itself
  rcases itself with (((itself | itself) | itself) | itself) | itself <;>
    simp only [alphabet, itself, Bool.true_or, Bool.or_true]

theorem Tidy.writes {t : Text} (tidy : op.Tidy t) : op.Writes t := by
  intro c member
  rcases tidy.mem member with itself | percent | digit
  · exact alphabet_of_plain itself
  · simp [alphabet, percent]
  · simp [alphabet, Hex.isUnreserved_of_isUpperDigit digit]

theorem Writes.append {s t : Text} (left : op.Writes s) (right : op.Writes t) :
    op.Writes (s ++ t) :=
  List.forall_mem_append.mpr ⟨left, right⟩

theorem writes_lead (op : Operator) : op.Writes op.lead := by
  intro c member
  simp [alphabet, member]

theorem alphabet_brace (op : Operator) : op.alphabet '{' = false ∧ op.alphabet '}' = false := by
  cases op <;> decide

theorem isHarmless_of_alphabet {c : CodePoint} (written : op.alphabet c = true) :
    c.isHarmless = true := by
  have own : ∀ d ∈ ('%' :: ',' :: '=' :: op.joiner :: (op.allowed ++ op.lead) : Text),
      0x20 < d.value ∧ d.value < 0x7f := by
    cases op <;> decide
  have forbidden : ∀ d ∈ ("\"\\<>\x7b\x7d" : Text), op.alphabet d = false := by
    cases op <;> decide
  have range : 0x20 < c.value ∧ c.value < 0x7f := by
    by_cases unreserved : Percent.isUnreserved c = true
    · exact Percent.range_of_unreserved unreserved
    · apply own
      rw [Bool.not_eq_true] at unreserved
      simp only [alphabet, unreserved, Bool.false_or, Bool.or_eq_true, decide_eq_true_eq,
        List.contains_iff_mem] at written
      simp only [List.mem_cons, List.mem_append]
      grind
  have permitted : ("\"\\<>\x7b\x7d" : Text).contains c = false := by
    rw [Bool.eq_false_iff, Ne, List.contains_iff_mem]
    intro member
    rw [forbidden c member] at written
    exact absurd written Bool.false_ne_true
  rw [CodePoint.isHarmless, permitted]
  simp [range]

theorem Tidy.not_mem {t : Text} (tidy : op.Tidy t) {c : CodePoint} (special : op.plain c = false)
    (other : c ≠ .ofChar '%') (noDigit : Hex.isUpperDigit c = false) : c ∉ t := by
  intro member
  rcases tidy.mem member with itself | percent | digit
  · rw [special] at itself
    exact absurd itself Bool.false_ne_true
  · exact other percent
  · rw [noDigit] at digit
    exact absurd digit Bool.false_ne_true

end Operator

theorem Varspec.tidy_render {op : Operator} {v : Varspec} {environment : Environment}
    {contribution : Text} (rendered : v.render op environment = some contribution) :
    op.Tidy contribution := by
  rw [render_eq_pieces] at rendered
  split at rendered
  · exact absurd rendered.symm (Option.some_ne_none contribution)
  · rw [← Option.some.inj rendered]
    exact op.tidy_pieces (op.composes_tidy.piece v _)

namespace Expression

theorem tidy_joined_pieces (e : Expression) (environment : Environment) :
    e.operator.Tidy (Text.joined [e.operator.joiner] (e.pieces environment)) := by
  apply e.operator.tidy_pieces
  intro piece member
  obtain ⟨v, _, inside⟩ := List.mem_flatMap.mp member
  exact e.operator.composes_tidy.piece v _ piece inside

theorem writes_expand (e : Expression) (environment : Environment) :
    e.operator.Writes (e.expand environment) := by
  rcases e.expand_eq_nil_or environment with empty | whole
  · rw [empty]
    exact fun c member => absurd member List.not_mem_nil
  · rw [whole]
    exact (e.operator.writes_lead).append (e.tidy_joined_pieces environment).writes

theorem slash_not_mem_pieces {e : Expression} {environment : Environment}
    (segments : e.operator = .pathSegment) :
    ∀ piece ∈ e.pieces environment, .ofChar '/' ∉ piece := by
  have slashless : e.operator.Composes (.ofChar '/' ∉ ·) := by
    rw [segments]
    exact Operator.composes_without rfl (by decide) (by decide) (by decide) (by decide)
  intro piece member
  obtain ⟨v, _, inside⟩ := List.mem_flatMap.mp member
  exact slashless.piece v _ piece inside

theorem isHarmless_of_mem_expand {e : Expression} {environment : Environment} {c : CodePoint}
    (member : c ∈ e.expand environment) : c.isHarmless = true :=
  Operator.isHarmless_of_alphabet (e.writes_expand environment c member)

end Expression

theorem Segment.literal_or_harmless {segments : List (Segment Expression)}
    {environment : Environment} {c : CodePoint}
    (member : c ∈ segments.flatMap (Segment.expand environment)) :
    (∃ run, .literal run ∈ segments ∧ c ∈ run) ∨ c.isHarmless = true := by
  obtain ⟨segment, inside, written⟩ := List.mem_flatMap.mp member
  cases segment with
  | literal run => exact Or.inl ⟨run, inside, written⟩
  | expression e => exact Or.inr (Expression.isHarmless_of_mem_expand written)

/-- An expansion is empty, or has behind its lead only plain characters and escapes with upper-case
digits; the lead of a fragment or a query does not occur again, and every slash of path segments is
inserted. Beside the literal runs of a template there is nothing that could not be printed. -/
theorem expand_closed :
    (∀ (e : Expression) (environment : Environment),
      e.expand environment = [] ∨
        ∃ rest, e.expand environment = e.operator.lead ++ rest ∧ e.operator.Tidy rest ∧
          (∀ before after, e.expand environment = before ++ .ofChar '%' :: after →
            ∃ high low others, after = high :: low :: others ∧
              Hex.isUpperDigit high = true ∧ Hex.isUpperDigit low = true) ∧
          (∀ c ∈ e.expand environment, c.isHarmless = true) ∧
          (e.operator = .fragment → .ofChar '#' ∉ rest) ∧
          (e.operator = .query → .ofChar '?' ∉ rest) ∧
          (e.operator = .pathSegment →
            rest = Text.joined [.ofChar '/'] (e.pieces environment) ∧
              ∀ piece ∈ e.pieces environment, .ofChar '/' ∉ piece)) ∧
      ∀ (t : Template) (segments : List (Segment Expression)) (environment : Environment),
        t.segments = .ok segments → ∃ text, t.expand environment = .ok text ∧
          ∀ c ∈ text, (∃ run, .literal run ∈ segments ∧ c ∈ run) ∨ c.isHarmless = true := by
  constructor
  · intro e environment
    rcases e.expand_eq_nil_or environment with empty | whole
    · exact Or.inl empty
    · have tidy := e.tidy_joined_pieces environment
      refine Or.inr ⟨_, whole, tidy, ?_, fun _ => Expression.isHarmless_of_mem_expand, ?_, ?_, ?_⟩
      · intro before after divided
        rw [whole] at divided
        obtain ⟨between, behind⟩ := Text.exists_of_append_eq e.operator.percent_not_mem_lead divided
        exact tidy.digits_behind e.operator.plain_percent behind
      · intro fragment
        exact tidy.not_mem (by rw [fragment]; decide) (by decide) (by decide)
      · intro query
        exact tidy.not_mem (by rw [query]; decide) (by decide) (by decide)
      · intro slashes
        refine ⟨?_, Expression.slash_not_mem_pieces slashes⟩
        rw [slashes]
        rfl
  · intro t segments environment parsed
    exact ⟨_, Template.expand_eq parsed, fun _ => Segment.literal_or_harmless⟩

theorem expand_closed_slash :
    (∃ rest, Expression.expand ⟨"/a*", .pathSegment, [⟨"a", true, none⟩]⟩
          (fun _ => some (.list ["x/y", "\"\x7b%"])) = .ofChar '/' :: rest ∧
        rest = Text.joined [.ofChar '/'] ["x%2Fy", "%22%7B%25"]) ∧
      ∃ text, Template.expand ⟨"<\x7b/a*\x7d"⟩ (fun _ => some (.list ["x/y", "\"\x7b%"])) = .ok text ∧
        ∀ c ∈ text, c = .ofChar '<' ∨ c.isHarmless = true := by
  constructor
  · rcases expand_closed.1 ⟨"/a*", .pathSegment, [⟨"a", true, none⟩]⟩
      (fun _ => some (.list ["x/y", "\"\x7b%"])) with empty | ⟨rest, whole, _, _, _, _, _, slashes⟩
    · exact absurd empty (by decide)
    · exact ⟨rest, whole, (slashes rfl).1⟩
  · obtain ⟨text, expanded, each⟩ := expand_closed.2 ⟨"<\x7b/a*\x7d"⟩
      [.literal "<", .expression ⟨"/a*", .pathSegment, [⟨"a", true, none⟩]⟩]
      (fun _ => some (.list ["x/y", "\"\x7b%"])) (by cbv)
    refine ⟨text, expanded, fun c member => ?_⟩
    rcases each c member with ⟨run, literal, inside⟩ | harmless
    · rcases List.mem_cons.mp literal with same | other
      · rw [Segment.literal.inj same] at inside
        exact Or.inl (List.mem_singleton.mp inside)
      · exact absurd (List.mem_singleton.mp other) (by simp)
    · exact Or.inr harmless

end UriTemplate
