import UriTemplate.Expansion
import UriTemplate.Proofs.Expression.Printing
import UriTemplate.Proofs.Template.Canonical

/-!
Templates that are one printed expression. Put between braces, a body without a closing brace is a
template with that body and nothing beside it, so printing an expression can be undone there too. In
any template the variables are counted by the expressions and the commas inside their bodies.
-/

namespace UriTemplate

theorem Segment.bodies_written {body : Text} (nonempty : body ≠ []) (unclosed : .ofChar '}' ∉ body) :
    bodies (written (.expression body)) = [.expression body] := by
  have canonical : Canonical [.expression body] :=
    Canonical.expression nonempty unclosed Canonical.nil
  have recovered := bodies_flatMap_written canonical
  rwa [List.flatMap_singleton] at recovered

theorem Expression.brace_not_mem_bodyOf {operator : Operator} {varspecs : List Varspec}
    (unclosed : ∀ v ∈ varspecs, .ofChar '}' ∉ v.name) :
    .ofChar '}' ∉ bodyOf operator varspecs := by
  have noMarker : .ofChar '}' ∉ operator.marker?.toList := by
    cases operator <;> decide
  intro member
  rcases List.mem_append.mp member with inMarker | inList
  · exact noMarker inMarker
  · rcases Text.mem_intercalate inList with comma | ⟨piece, belongs, inPiece⟩
    · exact absurd comma (by decide)
    · obtain ⟨v, listed, rfl⟩ := List.mem_map.mp belongs
      exact Varspec.not_mem_toText (unclosed v listed) (by decide) (by decide) (by decide) inPiece

namespace Template

variable {operator : Operator} {varspecs : List Varspec}

def listing (operator : Operator) (varspecs : List Varspec) : Template :=
  ⟨Segment.written (.expression (Expression.bodyOf operator varspecs))⟩

theorem segments_listing (nonempty : varspecs ≠ []) (printable : ∀ v ∈ varspecs, v.Printable)
    (unclosed : ∀ v ∈ varspecs, .ofChar '}' ∉ v.name)
    (unmarked : operator = .simple →
      ∀ c ∈ (Expression.bodyOf .simple varspecs).head?, Operator.ofMarker? c = none)
    (written : Expression.bodyOf operator varspecs ≠ []) :
    (listing operator varspecs).segments =
      .ok [.expression ⟨Expression.bodyOf operator varspecs, operator, varspecs⟩] := by
  apply segments_eq_ok_iff.mpr
  constructor
  · exact Segment.bodies_written written (Expression.brace_not_mem_bodyOf unclosed)
  · rw [List.forall_mem_singleton]
    exact Expression.ofBody_bodyOf nonempty printable unmarked

end Template

theorem Expression.length_flatMap_names {expressions : List Expression}
    (each : ∀ e ∈ expressions, ofBody e.body = .ok e) :
    (expressions.flatMap names).length =
      expressions.length + (expressions.map body).flatten.count (.ofChar ',') := by
  induction expressions with
  | nil => rfl
  | cons e expressions ih =>
      rw [List.forall_mem_cons] at each
      have own : e.names.length = e.body.count (.ofChar ',') + 1 := by
        rw [names, List.length_map, length_varspecs each.1]
      rw [List.flatMap_cons, List.length_append, own, ih each.2, List.map_cons, List.flatten_cons,
        List.count_append, List.length_cons]
      omega

theorem Template.length_variables {t : Template} {segments : List (Segment Expression)}
    (parsed : t.segments = .ok segments) :
    (Segment.names segments).length = t.bodies.length + t.bodies.flatten.count (.ofChar ',') := by
  have each := Segment.forall_parsed_iff.mp (segments_eq_ok_iff.mp parsed).2
  rw [Segment.names, Expression.length_flatMap_names each, bodies_eq parsed, List.length_map]

/-- Printed expressions are read back with the operator and the variables that were printed, by
themselves and as templates. Whatever is read, a body has one variable more than commas, its names
have no delimiters, and a template has a variable for each expression and each comma inside one. -/
theorem Expression.printed_read_back :
    (∀ (operator : Operator) (varspecs : List Varspec), varspecs ≠ [] →
      (∀ v ∈ varspecs, v.Printable ∧ .ofChar '}' ∉ v.name) →
      (operator = .simple →
        ∀ c ∈ (bodyOf .simple varspecs).head?, Operator.ofMarker? c = none) →
      ofBody (bodyOf operator varspecs) = .ok ⟨bodyOf operator varspecs, operator, varspecs⟩ ∧
        (bodyOf operator varspecs ≠ [] → (Template.listing operator varspecs).segments =
          .ok [.expression ⟨bodyOf operator varspecs, operator, varspecs⟩])) ∧
    (∀ (body : Text) (e : Expression), ofBody body = .ok e →
      e.varspecs.length = body.count (.ofChar ',') + 1 ∧
        ∀ v ∈ e.varspecs, .ofChar ',' ∉ v.name ∧ .ofChar ':' ∉ v.name) ∧
    ∀ (t : Template) (names : List Text), t.variables = .ok names →
      names.length = t.bodies.length + t.bodies.flatten.count (.ofChar ',') := by
  refine ⟨?_, ?_, ?_⟩
  · intro operator varspecs nonempty printable unmarked
    have each : ∀ v ∈ varspecs, v.Printable := fun v listed => (printable v listed).1
    refine ⟨ofBody_bodyOf nonempty each unmarked, fun written => ?_⟩
    exact Template.segments_listing nonempty each (fun v listed => (printable v listed).2) unmarked
      written
  · intro body e made
    exact ⟨length_varspecs made, delimiters_not_mem_name made⟩
  · intro t names listed
    obtain ⟨segments, parsed, rfl⟩ := Template.exists_segments listed
    exact Template.length_variables parsed

theorem Expression.printed_read_back_modifiers :
    ofBody "a+:0,b**,,*:12*" = .ok ⟨"a+:0,b**,,*:12*", .simple,
        [⟨"a+", false, some 0⟩, ⟨"b*", true, none⟩, ⟨"", false, none⟩, ⟨"*", true, some 12⟩]⟩ ∧
      Template.segments ⟨"\x7ba+:0,b**,,*:12*\x7d"⟩ = .ok [.expression ⟨"a+:0,b**,,*:12*", .simple,
        [⟨"a+", false, some 0⟩, ⟨"b*", true, none⟩, ⟨"", false, none⟩, ⟨"*", true, some 12⟩]⟩] ∧
      (∀ e, ofBody "?a:x,:7:8" = .ok e → e.varspecs.length = 2) ∧
      ∀ names, Template.variables ⟨"\x7ba,b\x7d,\x7b;c,\x7d"⟩ = .ok names → names.length = 4 := by
  obtain ⟨printed, read, counted⟩ := printed_read_back
  have printable : ∀ v ∈ [(⟨"a+", false, some 0⟩ : Varspec), ⟨"b*", true, none⟩,
      ⟨"", false, none⟩, ⟨"*", true, some 12⟩], v.Printable ∧ .ofChar '}' ∉ v.name := by
    simp only [List.mem_cons, List.not_mem_nil, or_false]
    rintro v (rfl | rfl | rfl | rfl) <;>
      exact ⟨⟨by decide, by decide, by decide, by decide⟩, by decide⟩
  have back := printed .simple _ (by decide) printable (by decide)
  refine ⟨back.1, back.2 (by decide), ?_, ?_⟩
  · intro e made
    exact (read _ e made).1
  · intro names listed
    have bodies : Template.bodies ⟨"\x7ba,b\x7d,\x7b;c,\x7d"⟩ = ["a,b", ";c,"] := by cbv
    have length := counted _ names listed
    rwa [bodies] at length

end UriTemplate
