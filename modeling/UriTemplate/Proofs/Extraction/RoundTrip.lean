import UriTemplate.Proofs.Datum.Environment
import UriTemplate.Proofs.Expansion.Inert
import UriTemplate.Proofs.Extraction.Recoverable
import UriTemplate.Proofs.Binding
import UriTemplate.Proofs.Operator.Encoding

/-!
Extraction recovers what expansion wrote. The encoded values of the variables are a reading of the
expanded text; a recoverable template has no other, and decoding the strings gives the values back.
-/

namespace UriTemplate

/-- The variables of the expressions are bound to these scalars: none with a surrogate, none empty
in an unmarked expression, and none longer than a variable keeps. -/
structure BindsScalars (expressions : List Expression) (environment : Environment)
    (value : Text → Text) : Prop where
  scalar : ∀ e ∈ expressions, ∀ v ∈ e.varspecs,
    environment v.name = some (.scalar (value v.name))
  noSurrogate : ∀ e ∈ expressions, ∀ v ∈ e.varspecs, (value v.name).hasSurrogate = false
  nonempty : ∀ e ∈ expressions, e.operator = .simple → ∀ v ∈ e.varspecs, value v.name ≠ []
  short : ∀ e ∈ expressions, ∀ v ∈ e.varspecs, ∀ length ∈ v.maxLength,
    (value v.name).length ≤ length

theorem Text.cut_of_length_le {t : Text} {length : Nat} (short : t.length ≤ length) :
    t.cut (Int.ofNat length) = t := by
  rw [Text.cut_ofNat]
  exact List.take_of_length_le short

namespace Operator

theorem isPlain_of_mem_encode {t : Text} {c : CodePoint} (member : c ∈ simple.encode t) :
    Pattern.isPlain c = true := by
  rcases Percent.mem_encode member with unreserved | rfl | allowed
  · simp only [Percent.isUnreserved, Bool.or_eq_true, decide_eq_true_eq] at unreserved
    simp only [Pattern.isPlain, Bool.or_eq_true, decide_eq_true_eq]
    tauto
  · decide
  · simp [Operator.allowed] at allowed

theorem alphabet_lineBreak (op : Operator) : op.alphabet '\n' = false := by
  cases op <;> decide

theorem render_scalar {op : Operator} (known : op = .simple ∨ op = .reserved) {name value : Text}
    {explode : Bool} {maxLength : Option Nat}
    (short : ∀ length ∈ maxLength, value.length ≤ length) :
    op.render name (some (.scalar value)) explode (maxLength.map Int.ofNat) =
      some (op.encode value) := by
  have whole : op.renderScalar value (maxLength.map Int.ofNat) = op.encode value := by
    cases maxLength with
    | none => rfl
    | some length =>
        simp only [renderScalar, Option.map_some, Text.cut_of_length_le (short length rfl)]
  rcases known with rfl | rfl
  · simpa [render, renderString, isNamed] using whole
  · simpa [render, renderString, isNamed] using whole

end Operator

namespace Expression

theorem assemble_eq_joined {op : Operator} {contributions : List Text} (noLead : op.lead = [])
    (few : (∀ contribution ∈ contributions, contribution = []) → contributions.length ≤ 1) :
    assemble op contributions = Text.joined [op.joiner] contributions := by
  unfold assemble
  split
  · rename_i allEmpty
    have empty : ∀ contribution ∈ contributions, contribution = [] := by
      simpa using allEmpty
    rcases Nat.le_one_iff_eq_zero_or_eq_one.mp (few empty) with none | one
    · rw [List.eq_nil_of_length_eq_zero none]
      rfl
    · obtain ⟨contribution, rfl⟩ := List.length_eq_one_iff.mp one
      rw [empty contribution (by simp), Text.joined_singleton]
  · rw [noLead, List.nil_append]

def strings (e : Expression) (value : Text → Text) : List Text :=
  e.varspecs.map fun v => e.operator.encode (value v.name)

theorem admits_strings {e : Expression} {value : Text → Text}
    (nonempty : e.operator = .simple → ∀ v ∈ e.varspecs, value v.name ≠ []) :
    ∀ string ∈ e.strings value, e.Admits string := by
  intro string member
  obtain ⟨v, listed, rfl⟩ := List.mem_map.mp member
  unfold Admits
  split
  · rename_i unmarked
    rw [unmarked]
    refine ⟨?_, fun c => Operator.isPlain_of_mem_encode⟩
    rw [Ne, Operator.encode_eq_nil_iff]
    exact nonempty unmarked v listed
  · intro lineBreak
    have written := (e.operator.tidy_encode (value v.name)).writes _ lineBreak
    rw [e.operator.alphabet_lineBreak] at written
    exact absurd written Bool.false_ne_true

end Expression

section

variable {segments : List (Segment Expression)} {expressions : List Expression}
  {environment : Environment} {value : Text → Text}

theorem BindsScalars.tail {e : Expression}
    (binds : BindsScalars (e :: expressions) environment value) :
    BindsScalars expressions environment value where
  scalar e member := binds.scalar e (List.mem_cons_of_mem _ member)
  noSurrogate e member := binds.noSurrogate e (List.mem_cons_of_mem _ member)
  nonempty e member := binds.nonempty e (List.mem_cons_of_mem _ member)
  short e member := binds.short e (List.mem_cons_of_mem _ member)

theorem contributions_eq {e : Expression} (known : e.operator = .simple ∨ e.operator = .reserved)
    (member : e ∈ expressions) (binds : BindsScalars expressions environment value) :
    e.contributions environment = e.strings value := by
  have each : ∀ v ∈ e.varspecs,
      v.render e.operator environment = some (e.operator.encode (value v.name)) := by
    intro v listed
    rw [Varspec.render, binds.scalar e member v listed]
    exact Operator.render_scalar known (binds.short e member v listed)
  unfold Expression.contributions Expression.strings
  rw [List.filterMap_congr each, ← List.filterMap_eq_map]
  rfl

theorem expand_expression_eq {e : Expression}
    (known : e.operator = .simple ∨ e.operator = .reserved ∧ e.varspecs.length = 1)
    (member : e ∈ expressions) (binds : BindsScalars expressions environment value) :
    e.expand environment = Text.joined [e.operator.joiner] (e.strings value) := by
  rw [Expression.expand, contributions_eq (known.imp_right And.left) member binds]
  apply Expression.assemble_eq_joined
  · rcases known with unmarked | ⟨reserved, _⟩
    · rw [unmarked]
      rfl
    · rw [reserved]
      rfl
  · intro empty
    rcases known with unmarked | ⟨_, single⟩
    · have none : e.strings value = [] := by
        rw [List.eq_nil_iff_forall_not_mem]
        intro string belongs
        obtain ⟨v, listed, rfl⟩ := List.mem_map.mp belongs
        exact binds.nonempty e member unmarked v listed
          (Operator.encode_eq_nil_iff.mp (empty _ belongs))
      rw [none]
      exact Nat.zero_le 1
    · rw [Expression.strings, List.length_map, single]

theorem reads_expand
    (operators : ∀ e ∈ Segment.expressions segments,
      e.operator = .simple ∨ e.operator = .reserved ∧ e.varspecs.length = 1)
    (binds : BindsScalars (Segment.expressions segments) environment value) :
    Reads segments ((Segment.expressions segments).flatMap fun e => e.strings value)
      (segments.flatMap (Segment.expand environment)) := by
  induction segments with
  | nil => exact Reads.nil
  | cons segment segments ih =>
      rw [List.flatMap_cons]
      cases segment with
      | literal run => exact Reads.literal (ih operators binds)
      | expression e =>
          rw [Segment.expressions_expression_cons, List.forall_mem_cons] at operators
          rw [Segment.expressions_expression_cons, List.flatMap_cons, Segment.expand,
            expand_expression_eq operators.1 (by simp) binds]
          refine Reads.expression ?_ ?_ (ih operators.2 binds.tail)
          · rw [Expression.strings, List.length_map]
          · exact Expression.admits_strings (binds.nonempty e (by simp))

theorem decode_strings (binds : BindsScalars expressions environment value) :
    (expressions.flatMap fun e => e.strings value).map Percent.decode =
      (expressions.flatMap Expression.names).map value := by
  rw [List.map_flatMap, List.map_flatMap]
  apply List.flatMap_congr
  intro e member
  rw [Expression.strings, Expression.names, List.map_map, List.map_map]
  apply List.map_congr_left
  intro v listed
  exact e.operator.decode_encode (binds.noSurrogate e member v listed)

theorem greatestReading_expand (recoverable : Recoverable segments)
    (binds : BindsScalars (Segment.expressions segments) environment value) :
    GreatestReading segments ((Segment.expressions segments).flatMap fun e => e.strings value)
      (segments.flatMap (Segment.expand environment)) := by
  have reads := reads_expand recoverable.operators binds
  refine ⟨reads, ?_⟩
  intro others other
  rw [recoverable.unique reads other]

end

/-- Extraction from an expansion gives each variable of a recoverable template its value back. -/
theorem extractText_expandText (t : Template) (segments : List (Segment Expression))
    (parsed : t.segments = .ok segments) (recoverable : Recoverable segments)
    (bindings : Datum) (bound : List (Datum × Binding))
    (coerced : bindings.coerceBindings = .ok bound) (value : Text → Text)
    (binds : BindsScalars (Segment.expressions segments) (Datum.environmentOf bound) value) :
    ∃ names expanded, t.variables = .ok names ∧
      expandText (.text t.text) bindings = .ok expanded ∧
      extractText (.text t.text) (.text expanded) =
        .ok (some (names.eraseDups.map fun name => (name, value name))) := by
  refine ⟨_, segments.flatMap (Segment.expand (Datum.environmentOf bound)),
    Template.variables_eq parsed, ?_, ?_⟩
  · rw [expandText_text coerced]
    exact Template.expand_eq parsed
  · have greatest := greatestReading_expand recoverable binds
    rw [extractText_text, Template.extract_eq parsed, greatestReading_iff.mp greatest,
      Option.map_some, decode_strings binds, Segment.names]
    rw [← List.map_prod_left_eq_zip, Entries.putAll_graph]

theorem extractText_expandText_repeated :
    ∃ expanded,
      expandText (.text "\x7ba,b*\x7d/\x7b+c:9\x7d?\x7ba\x7d") (.mapping .plain [(.text "a", .text "é %"),
        (.text "b", .bool true), (.text "c", .text "\x7b/é\x7d"), (.text "d", .list [])]) =
          .ok expanded ∧
      extractText (.text "\x7ba,b*\x7d/\x7b+c:9\x7d?\x7ba\x7d") (.text expanded) =
        .ok (some [("a", "é %"), ("b", "True"), ("c", "\x7b/é\x7d")]) := by
  have parsed : Template.segments ⟨"\x7ba,b*\x7d/\x7b+c:9\x7d?\x7ba\x7d"⟩ =
      .ok [.expression ⟨"a,b*", .simple, [⟨"a", false, none⟩, ⟨"b", true, none⟩]⟩, .literal "/",
        .expression ⟨"+c:9", .reserved, [⟨"c", false, some 9⟩]⟩, .literal "?",
        .expression ⟨"a", .simple, [⟨"a", false, none⟩]⟩] := by cbv
  obtain ⟨names, expanded, listed, expands, extracts⟩ := extractText_expandText _ _ parsed
    (by decide) (.mapping .plain [(.text "a", .text "é %"), (.text "b", .bool true),
      (.text "c", .text "\x7b/é\x7d"), (.text "d", .list [])])
    [(.text "a", .scalar "é %"), (.text "b", .scalar "True"), (.text "c", .scalar "\x7b/é\x7d"),
      (.text "d", .list [])] rfl
    (fun name => if name = "a" then "é %" else if name = "b" then "True" else "\x7b/é\x7d")
    ⟨by simp only [Datum.environmentOf_cons]; decide, by decide, by decide, by decide⟩
  rw [Template.variables_eq parsed, Except.ok.injEq] at listed
  subst listed
  exact ⟨expanded, expands, extracts⟩

end UriTemplate
