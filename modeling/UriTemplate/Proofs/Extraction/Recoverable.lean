import UriTemplate.Proofs.Extraction.Reading
import UriTemplate.Proofs.Pattern.Unambiguous

/-!
Recoverable templates have at most one reading of any text. Their expressions are unmarked, but for
one reserved expression of a single variable, and between two expressions stands a character that no
unmarked expression can write.
-/

namespace UriTemplate

def Segment.Breaks (segments : List (Segment Expression)) : Prop :=
  ∃ run c, .literal run ∈ segments ∧ c ∈ run ∧ Pattern.isPlain c = false

structure Recoverable (segments : List (Segment Expression)) : Prop where
  operators : ∀ e ∈ Segment.expressions segments,
    e.operator = .simple ∨ e.operator = .reserved ∧ e.varspecs.length = 1
  atMostOne : (Segment.expressions segments).countP (fun e => e.operator = .reserved) ≤ 1
  separated : ∀ before first between second after,
    segments = before ++ .expression first :: between ++ .expression second :: after →
      (∀ segment ∈ between, segment.expression? = none) → Segment.Breaks between

namespace Segment

/-- Before the first expression, if there is one, stands a character that is not plain. -/
def guarded : List (Segment Expression) → Bool
  | [] => true
  | .expression _ :: _ => false
  | .literal run :: segments => run.any (fun c => !Pattern.isPlain c) || guarded segments

/-- Any two consecutive expressions have such a character between them. -/
def apart : List (Segment Expression) → Bool
  | [] => true
  | .expression _ :: segments => guarded segments && apart segments
  | .literal _ :: segments => apart segments

theorem not_breaks_nil : ¬ Breaks [] := by
  rintro ⟨run, c, member, _⟩
  simp at member

theorem breaks_literal_cons_iff {run : Text} {segments : List (Segment Expression)} :
    Breaks (.literal run :: segments) ↔
      run.any (fun c => !Pattern.isPlain c) = true ∨ Breaks segments := by
  simp only [List.any_eq_true, Bool.not_eq_true']
  constructor
  · rintro ⟨other, c, member, inOther, notPlain⟩
    rcases List.mem_cons.mp member with same | later
    · rw [Segment.literal.inj same] at inOther
      exact Or.inl ⟨c, inOther, notPlain⟩
    · exact Or.inr ⟨other, c, later, inOther, notPlain⟩
  · rintro (⟨c, inRun, notPlain⟩ | ⟨other, c, member, inOther, notPlain⟩)
    · exact ⟨run, c, List.mem_cons_self, inRun, notPlain⟩
    · exact ⟨other, c, List.mem_cons_of_mem _ member, inOther, notPlain⟩

theorem guarded_iff {segments : List (Segment Expression)} :
    guarded segments = true ↔
      ∀ between second after, segments = between ++ .expression second :: after →
        (∀ segment ∈ between, segment.expression? = none) → Breaks between := by
  induction segments with
  | nil => simp [guarded]
  | cons segment segments ih =>
      cases segment with
      | expression e =>
          constructor
          · intro none
            exact absurd none Bool.false_ne_true
          · intro separated
            exact absurd (separated [] e segments rfl (by simp)) not_breaks_nil
      | literal run =>
          rw [guarded, Bool.or_eq_true, ih]
          constructor
          · intro found between second after divided literals
            cases between with
            | nil => simp at divided
            | cons segment between =>
                obtain ⟨rfl, rfl⟩ := List.cons.inj divided
                rw [List.forall_mem_cons] at literals
                apply breaks_literal_cons_iff.mpr
                exact found.imp_right fun later => later between second after rfl literals.2
          · intro separated
            by_cases found : run.any (fun c => !Pattern.isPlain c) = true
            · exact Or.inl found
            · refine Or.inr ?_
              rintro between second after rfl literals
              have breaks := separated (.literal run :: between) second after rfl
                (List.forall_mem_cons.mpr ⟨rfl, literals⟩)
              exact (breaks_literal_cons_iff.mp breaks).resolve_left found

theorem apart_iff {segments : List (Segment Expression)} :
    apart segments = true ↔
      ∀ before first between second after,
        segments = before ++ .expression first :: between ++ .expression second :: after →
          (∀ segment ∈ between, segment.expression? = none) → Breaks between := by
  induction segments with
  | nil => simp [apart]
  | cons segment segments ih =>
      cases segment with
      | literal run =>
          rw [apart, ih]
          constructor
          · intro separated before first between second after divided literals
            cases before with
            | nil => simp at divided
            | cons segment before =>
                obtain ⟨_, divided⟩ := List.cons.inj divided
                exact separated before first between second after divided literals
          · rintro separated before first between second after rfl literals
            exact separated (.literal run :: before) first between second after rfl literals
      | expression e =>
          rw [apart, Bool.and_eq_true, guarded_iff, ih]
          constructor
          · rintro ⟨next, rest⟩ before first between second after divided literals
            cases before with
            | nil =>
                obtain ⟨_, divided⟩ := List.cons.inj divided
                exact next between second after divided literals
            | cons segment before =>
                obtain ⟨_, divided⟩ := List.cons.inj divided
                exact rest before first between second after divided literals
          · intro separated
            constructor
            · rintro between second after rfl literals
              exact separated [] e between second after rfl literals
            · rintro before first between second after rfl literals
              exact separated (.expression e :: before) first between second after rfl literals

end Segment

theorem recoverable_iff {segments : List (Segment Expression)} :
    Recoverable segments ↔
      (∀ e ∈ Segment.expressions segments,
        e.operator = .simple ∨ e.operator = .reserved ∧ e.varspecs.length = 1) ∧
      (Segment.expressions segments).countP (fun e => e.operator = .reserved) ≤ 1 ∧
      Segment.apart segments = true := by
  rw [Segment.apart_iff]
  constructor
  · rintro ⟨operators, atMostOne, separated⟩
    exact ⟨operators, atMostOne, separated⟩
  · rintro ⟨operators, atMostOne, separated⟩
    exact ⟨operators, atMostOne, separated⟩

instance (segments : List (Segment Expression)) : Decidable (Recoverable segments) :=
  decidable_of_iff _ recoverable_iff.symm

namespace Pattern

theorem anchored_literal_append_iff {run : Text} {p : Pattern} :
    Anchored (run.map Token.char ++ p) ↔ (∃ c ∈ run, isPlain c = false) ∨ Anchored p := by
  induction run with
  | nil => simp
  | cons c run ih =>
      rw [List.map_cons, List.cons_append, Anchored, ih, List.exists_mem_cons_iff]
      cases isPlain c <;> simp

theorem separated_literal_append_iff {run : Text} {p : Pattern} :
    Separated (run.map Token.char ++ p) ↔ Separated p := by
  induction run with
  | nil => rfl
  | cons c run ih => exact ih

theorem separated_ofExpression_append {e : Expression} {p : Pattern}
    (outside : isPlain e.operator.joiner = false) (anchored : Anchored p)
    (separated : Separated p) : Separated (ofExpression e ++ p) := by
  have group {q : Pattern} (anchored : Anchored q) (separated : Separated q) :
      Separated (groupOf e :: q) := by
    unfold groupOf
    split <;> exact ⟨anchored, separated⟩
  rw [ofExpression_eq]
  induction e.varspecs with
  | nil => exact separated
  | cons v varspecs ih =>
      cases varspecs with
      | nil =>
          rw [groupsOf_singleton]
          exact group anchored separated
      | cons w varspecs =>
          rw [groupsOf_cons_cons]
          exact group (fun plain => absurd plain (by simp [outside])) ih

theorem anchored_ofSegments {segments : List (Segment Expression)}
    (guarded : Segment.guarded segments = true) : Anchored (ofSegments segments) := by
  induction segments with
  | nil => trivial
  | cons segment segments ih =>
      cases segment with
      | expression e => exact absurd guarded Bool.false_ne_true
      | literal run =>
          rw [Segment.guarded, Bool.or_eq_true] at guarded
          apply anchored_literal_append_iff.mpr
          refine guarded.imp ?_ ih
          intro outside
          simpa using outside

theorem joiner_outside {op : Operator} (known : op = .simple ∨ op = .reserved) :
    isPlain op.joiner = false := by
  rcases known with rfl | rfl <;> decide

theorem separated_ofSegments {segments : List (Segment Expression)}
    (operators : ∀ e ∈ Segment.expressions segments,
      e.operator = .simple ∨ e.operator = .reserved ∧ e.varspecs.length = 1)
    (apart : Segment.apart segments = true) : Separated (ofSegments segments) := by
  induction segments with
  | nil => trivial
  | cons segment segments ih =>
      cases segment with
      | literal run => exact separated_literal_append_iff.mpr (ih operators apart)
      | expression e =>
          rw [Segment.expressions_expression_cons, List.forall_mem_cons] at operators
          rw [Segment.apart, Bool.and_eq_true] at apart
          have outside := joiner_outside (operators.1.imp_right And.left)
          exact separated_ofExpression_append outside (anchored_ofSegments apart.1)
            (ih operators.2 apart.2)

theorem count_free_literal (run : Text) : (run.map Token.char).count .free = 0 := by
  rw [List.count_eq_zero]
  simp

theorem count_free_ofExpression {e : Expression}
    (known : e.operator = .simple ∨ e.operator = .reserved ∧ e.varspecs.length = 1) :
    (ofExpression e).count .free = if e.operator = .reserved then 1 else 0 := by
  rcases known with unmarked | ⟨reserved, single⟩
  · have absent : .free ∉ ofExpression e := by
      intro member
      rw [ofExpression, unmarked, if_pos rfl] at member
      rcases Text.mem_intercalate member with inJoiner | ⟨group, belongs, inGroup⟩
      · simp at inJoiner
      · obtain ⟨_, _, rfl⟩ := List.mem_map.mp belongs
        simp at inGroup
    rw [List.count_eq_zero.mpr absent, unmarked]
    rfl
  · obtain ⟨v, one⟩ := List.length_eq_one_iff.mp single
    rw [ofExpression, one, reserved]
    rfl

theorem count_free_ofSegments {segments : List (Segment Expression)}
    (operators : ∀ e ∈ Segment.expressions segments,
      e.operator = .simple ∨ e.operator = .reserved ∧ e.varspecs.length = 1) :
    (ofSegments segments).count .free =
      (Segment.expressions segments).countP (fun e => e.operator = .reserved) := by
  induction segments with
  | nil => rfl
  | cons segment segments ih =>
      rw [ofSegments, List.flatMap_cons, List.count_append]
      cases segment with
      | literal run =>
          rw [ofSegment, count_free_literal, Nat.zero_add]
          exact ih operators
      | expression e =>
          rw [Segment.expressions_expression_cons, List.forall_mem_cons] at operators
          rw [ofSegment, count_free_ofExpression operators.1, Segment.expressions_expression_cons,
            List.countP_cons, Nat.add_comm]
          simp only [decide_eq_true_eq]
          exact congrArg (· + _) (ih operators.2)

end Pattern

theorem Recoverable.unique {segments : List (Segment Expression)}
    (recoverable : Recoverable segments) {strings others : List Text} {t : Text}
    (reads : Reads segments strings t) (other : Reads segments others t) : strings = others := by
  obtain ⟨operators, atMostOne, apart⟩ := recoverable_iff.mp recoverable
  refine Pattern.Matches.unique (Pattern.separated_ofSegments operators apart) ?_
    (Pattern.matches_ofSegments_iff.mpr reads) (Pattern.matches_ofSegments_iff.mpr other)
  rw [Pattern.count_free_ofSegments operators]
  exact atMostOne

end UriTemplate
