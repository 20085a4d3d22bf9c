import UriTemplate.Proofs.Expansion.Basic
import UriTemplate.Proofs.Operator.Alphabet

/-!
An expansion contains no expression, so expanding it again changes nothing. No expression expands to
a brace, and the braces that the literal runs keep stay as inert as they were: in a run before an
expression each opening brace is closed at once, so none of them can reach across the expansion.
-/

namespace UriTemplate

namespace Template

variable {t : Template} {environment : Environment}

theorem inertBraces_expand {segments : List (Segment Expression)}
    (canonical : Segment.Canonical (segments.map Segment.raw)) :
    Segment.InertBraces (segments.flatMap (Segment.expand environment)) := by
  induction segments with
  | nil => exact Segment.afterBraces_nil _
  | cons segment segments ih =>
      rw [List.flatMap_cons]
      cases segment with
      | expression e =>
          obtain ⟨_, _, rest⟩ := Segment.canonical_expression_cons_iff.mp canonical
          have braceless : .ofChar '{' ∉ e.expand environment := by
            intro member
            have written := e.writes_expand environment _ member
            rw [e.operator.alphabet_brace.1] at written
            exact absurd written Bool.false_ne_true
          have empty : Segment.EmptyBraces (e.expand environment) :=
            Segment.afterBraces_of_not_mem braceless
          exact empty.append (ih rest)
      | literal run =>
          obtain ⟨_, rest, ⟨last, inert⟩ | ⟨_, empty⟩⟩ :=
            Segment.canonical_literal_cons_iff.mp canonical
          · rw [List.map_eq_nil_iff] at last
            subst segments
            rw [List.flatMap_nil, List.append_nil]
            exact inert
          -- Before an expression each opening brace is closed at once, whatever follows the run.
          · exact empty.append (ih rest)

theorem bodies_of_inertBraces {run : Text} (inert : Segment.InertBraces run) :
    Segment.bodies run = if run = [] then [] else [.literal run] := by
  split
  · rename_i empty
    rw [empty, Segment.bodies_nil]
  · rename_i nonempty
    have recovered := Segment.bodies_flatMap_written (Segment.Canonical.ending nonempty inert)
    rwa [List.flatMap_singleton, Segment.written] at recovered

theorem segments_of_inertBraces (inert : Segment.InertBraces t.text) :
    t.segments = .ok (if t.text = [] then [] else [.literal t.text]) := by
  rw [segments, bodies_of_inertBraces inert]
  split <;> rfl

theorem expand_of_inertBraces (inert : Segment.InertBraces t.text) :
    t.expand environment = .ok t.text := by
  rw [expand_eq (segments_of_inertBraces inert)]
  split
  · rename_i empty
    rw [empty, List.flatMap_nil]
  · rw [List.flatMap_singleton, Segment.expand]

theorem bodies_eq_nil_of_inertBraces (inert : Segment.InertBraces t.text) : t.bodies = [] := by
  rw [bodies, bodies_of_inertBraces inert]
  split <;> rfl

theorem variables_of_inertBraces (inert : Segment.InertBraces t.text) : t.variables = .ok [] := by
  rw [variables_eq (segments_of_inertBraces inert)]
  split <;> rfl

end Template

/-- Whatever is bound, an expansion has no expressions and no variables, and expanding it again with
any other bindings leaves it as it is. -/
theorem expandText_inert (t : Template) (segments : List (Segment Expression))
    (parsed : t.segments = .ok segments) (bindings : Datum) (bound : List (Datum × Binding))
    (coerced : bindings.coerceBindings = .ok bound) :
    ∃ expanded, expandText (.text t.text) bindings = .ok expanded ∧
      Template.bodies ⟨expanded⟩ = [] ∧ Template.variables ⟨expanded⟩ = .ok [] ∧
      ∀ (others : Datum) (otherBound : List (Datum × Binding)),
        others.coerceBindings = .ok otherBound →
          expandText (.text expanded) others = .ok expanded := by
  have canonical : Segment.Canonical (segments.map Segment.raw) := by
    rw [← (Template.segments_eq_ok_iff.mp parsed).1]
    exact Segment.canonical_bodies t.text
  have inert : Segment.InertBraces
      (segments.flatMap (Segment.expand (Datum.environmentOf bound))) :=
    Template.inertBraces_expand canonical
  refine ⟨_, ?_, Template.bodies_eq_nil_of_inertBraces inert,
    Template.variables_of_inertBraces inert, ?_⟩
  · rw [expandText_text coerced]
    exact Template.expand_eq parsed
  · intro others otherBound otherCoerced
    rw [expandText_text otherCoerced]
    exact Template.expand_of_inertBraces inert

theorem expandText_inert_braces :
    ∃ expanded, expandText (.text "\x7b\x7d\x7b+a\x7d\x7d\x7b")
        (.mapping .plain [(.text "a", .list [.text "\x7bb\x7d", .text "\x7d"])]) = .ok expanded ∧
      Template.bodies ⟨expanded⟩ = [] ∧ Template.variables ⟨expanded⟩ = .ok [] ∧
      expandText (.text expanded) (.mapping .plain [(.text "b", .bool true)]) = .ok expanded := by
  obtain ⟨expanded, expands, noBodies, noNames, again⟩ := expandText_inert
    ⟨"\x7b\x7d\x7b+a\x7d\x7d\x7b"⟩
    [.literal "\x7b\x7d", .expression ⟨"+a", .reserved, [⟨"a", false, none⟩]⟩, .literal "\x7d\x7b"]
    (by cbv) (.mapping .plain [(.text "a", .list [.text "\x7bb\x7d", .text "\x7d"])])
    [(.text "a", .list ["\x7bb\x7d", "\x7d"])] rfl
  exact ⟨expanded, expands, noBodies, noNames, again _ [(.text "b", .scalar "True")] rfl⟩

end UriTemplate
