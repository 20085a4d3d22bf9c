import UriTemplate.Proofs.Extraction.RoundTrip
import UriTemplate.Proofs.Interface.Totality

/-!
Templates admit their own expansions, whatever shapes the values have. An expression with one marked
variable can always be read back as a whole; with more variables none of them may be left out, or
its joiner would be missing, and an unmarked variable needs something to show.
-/

namespace UriTemplate

/-- All variables leave their part of the expansion. -/
structure Expression.Complete (e : Expression) (environment : Environment) : Prop where
  unmarked : e.operator = .simple → ∀ v ∈ e.varspecs,
    ∃ value, environment v.name = some (.scalar value) ∧ v.shown value ≠ []
  marked : e.operator ≠ .simple → 2 ≤ e.varspecs.length →
    (∀ v ∈ e.varspecs, ∃ contribution, v.render e.operator environment = some contribution) ∧
      ∃ v ∈ e.varspecs, ∃ contribution, v.render e.operator environment = some contribution ∧
        contribution ≠ []

theorem Varspec.render_scalar_simple {v : Varspec} {environment : Environment} {value : Text}
    (bound : environment v.name = some (.scalar value)) :
    v.render .simple environment = some (Operator.simple.encode (v.shown value)) := by
  rw [render, bound, Operator.render, Operator.renderString, if_neg (by simp),
    if_neg (by simp [Operator.isNamed]), renderScalar_eq]

namespace Operator

theorem Writes.no_lineBreak {op : Operator} {t : Text} (writes : op.Writes t) :
    .ofChar '\n' ∉ t := by
  intro member
  have written := writes _ member
  rw [op.alphabet_lineBreak] at written
  exact absurd written Bool.false_ne_true

end Operator

namespace Expression

variable {e : Expression} {environment : Environment}

theorem writes_contribution {contribution : Text}
    (member : contribution ∈ e.contributions environment) : e.operator.Writes contribution := by
  obtain ⟨v, _, rendered⟩ := List.mem_filterMap.mp member
  exact (Varspec.tidy_render rendered).writes

theorem expand_eq_joined (some : ∃ contribution ∈ e.contributions environment, contribution ≠ []) :
    e.expand environment = Text.joined [e.operator.joiner]
      ((e.contributions environment).modifyHead (e.operator.lead ++ ·)) := by
  obtain ⟨contribution, member, nonempty⟩ := some
  rw [Text.joined_modifyHead (List.ne_nil_of_mem member), expand, assemble_of_mem member nonempty]

theorem length_contributions
    (all : ∀ v ∈ e.varspecs, ∃ contribution, v.render e.operator environment = some contribution) :
    (e.contributions environment).length = e.varspecs.length := by
  rw [contributions, List.filterMap_length_eq_length]
  intro v listed
  exact Option.isSome_iff_exists.mpr (all v listed)

theorem contributions_of_complete (complete : e.Complete environment)
    (unmarked : e.operator = .simple) :
    (∀ v ∈ e.varspecs, ∃ contribution, v.render e.operator environment = some contribution) ∧
      ∀ contribution ∈ e.contributions environment, e.Admits contribution := by
  constructor
  · intro v listed
    obtain ⟨value, bound, _⟩ := complete.unmarked unmarked v listed
    rw [unmarked]
    exact ⟨_, Varspec.render_scalar_simple bound⟩
  · intro contribution member
    obtain ⟨v, listed, rendered⟩ := List.mem_filterMap.mp member
    obtain ⟨value, bound, nonempty⟩ := complete.unmarked unmarked v listed
    rw [unmarked, Varspec.render_scalar_simple bound, Option.some.injEq] at rendered
    subst contribution
    rw [Admits, if_pos unmarked]
    refine ⟨?_, fun c => Operator.isPlain_of_mem_encode⟩
    rw [Ne, Operator.encode_eq_nil_iff]
    exact nonempty

theorem exists_strings_of_unmarked (complete : e.Complete environment) (several : e.varspecs ≠ [])
    (unmarked : e.operator = .simple) :
    ∃ strings, strings.length = e.varspecs.length ∧ (∀ string ∈ strings, e.Admits string) ∧
      e.expand environment = Text.joined [e.operator.joiner] strings := by
  obtain ⟨all, admitted⟩ := contributions_of_complete complete unmarked
  have size := length_contributions all
  have some : e.contributions environment ≠ [] := by
    intro empty
    rw [empty, List.length_nil] at size
    exact several (List.eq_nil_of_length_eq_zero size.symm)
  obtain ⟨contribution, member⟩ := List.exists_mem_of_ne_nil _ some
  have nonempty : contribution ≠ [] := by
    have admits := admitted contribution member
    rw [Admits, if_pos unmarked] at admits
    exact admits.1
  refine ⟨e.contributions environment, size, admitted, ?_⟩
  rw [expand_eq_joined ⟨contribution, member, nonempty⟩, Text.joined_modifyHead some, unmarked]
  rfl

theorem admits_of_writes (marked : e.operator ≠ .simple) {string : Text}
    (writes : e.operator.Writes string) : e.Admits string := by
  rw [Admits, if_neg marked]
  exact writes.no_lineBreak

theorem exists_strings_of_marked (complete : e.Complete environment) (marked : e.operator ≠ .simple)
    (several : 2 ≤ e.varspecs.length) :
    ∃ strings, strings.length = e.varspecs.length ∧ (∀ string ∈ strings, e.Admits string) ∧
      e.expand environment = Text.joined [e.operator.joiner] strings := by
  obtain ⟨all, v, listed, contribution, rendered, nonempty⟩ := complete.marked marked several
  have member : contribution ∈ e.contributions environment :=
    List.mem_filterMap.mpr ⟨v, listed, rendered⟩
  have written : ∀ contribution ∈ e.contributions environment, e.operator.Writes contribution :=
    fun _ => writes_contribution
  refine ⟨_, ?_, ?_, expand_eq_joined ⟨contribution, member, nonempty⟩⟩
  · rw [List.length_modifyHead, length_contributions all]
  · obtain ⟨first, others, shape⟩ := List.exists_cons_of_ne_nil (List.ne_nil_of_mem member)
    rw [shape, List.forall_mem_cons] at written
    rw [shape, List.modifyHead_cons, List.forall_mem_cons]
    constructor
    · exact admits_of_writes marked ((e.operator.writes_lead).append written.1)
    · intro string later
      exact admits_of_writes marked (written.2 string later)

theorem exists_strings_of_complete (complete : e.Complete environment) :
    ∃ strings, strings.length = e.varspecs.length ∧ (∀ string ∈ strings, e.Admits string) ∧
      e.expand environment = Text.joined [e.operator.joiner] strings := by
  by_cases none : e.varspecs = []
  · refine ⟨[], by simp [none], by simp, ?_⟩
    rw [expand, contributions, none]
    rfl
  · have positive := List.length_pos_iff.mpr none
    by_cases unmarked : e.operator = .simple
    · exact exists_strings_of_unmarked complete none unmarked
    · by_cases single : e.varspecs.length = 1
      -- Whatever a single marked variable leaves, it is taken as a whole.
      · refine ⟨[e.expand environment], by simp [single], ?_, (Text.joined_singleton _).symm⟩
        rw [List.forall_mem_singleton]
        exact admits_of_writes unmarked (e.writes_expand environment)
      · exact exists_strings_of_marked complete unmarked (by omega)

end Expression

theorem exists_reads_expand {segments : List (Segment Expression)} {environment : Environment}
    (complete : ∀ e ∈ Segment.expressions segments, e.Complete environment) :
    ∃ strings, Reads segments strings (segments.flatMap (Segment.expand environment)) := by
  induction segments with
  | nil => exact ⟨[], Reads.nil⟩
  | cons segment segments ih =>
      rw [List.flatMap_cons]
      cases segment with
      | literal run =>
          obtain ⟨strings, reads⟩ := ih complete
          exact ⟨strings, Reads.literal reads⟩
      | expression e =>
          rw [Segment.expressions_expression_cons, List.forall_mem_cons] at complete
          obtain ⟨strings, reads⟩ := ih complete.2
          obtain ⟨own, size, admitted, expanded⟩ :=
            Expression.exists_strings_of_complete complete.1
          rw [Segment.expand, expanded]
          exact ⟨own ++ strings, Reads.expression size admitted reads⟩

/-- A template in whose expressions all variables leave their part admits its expansion. -/
theorem admits_expandText (t : Template) (segments : List (Segment Expression))
    (parsed : t.segments = .ok segments) (bindings : Datum) (bound : List (Datum × Binding))
    (coerced : bindings.coerceBindings = .ok bound)
    (complete : ∀ e ∈ Segment.expressions segments, e.Complete (Datum.environmentOf bound)) :
    ∃ expanded, expandText (.text t.text) bindings = .ok expanded ∧
      t.admits expanded = .ok true ∧ admits (.text t.text) (.text expanded) = .ok true := by
  obtain ⟨strings, reads⟩ := exists_reads_expand complete
  obtain ⟨best, greatest⟩ := Template.exists_greatestReading reads
  obtain ⟨values, _, extracts⟩ := Template.extract_of_greatestReading parsed greatest
  refine ⟨segments.flatMap (Segment.expand (Datum.environmentOf bound)), ?_, ?_, ?_⟩
  · rw [expandText_text coerced]
    exact Template.expand_eq parsed
  · rw [Template.admits, extracts]
    rfl
  · rw [admits_text, extracts]
    rfl

theorem admits_expandText_adjacent :
    ∃ expanded,
      expandText (.text "\x7ba:1\x7d\x7b;b*,c\x7d") (.mapping .plain [(.text "a", .text "xy"),
        (.text "b", .list [.text ";", .text ""]), (.text "c", .text [⟨0xd800, by decide⟩])]) =
          .ok expanded ∧
      admits (.text "\x7ba:1\x7d\x7b;b*,c\x7d") (.text expanded) = .ok true := by
  have parsed : Template.segments ⟨"\x7ba:1\x7d\x7b;b*,c\x7d"⟩ =
      .ok [.expression ⟨"a:1", .simple, [⟨"a", false, some 1⟩]⟩,
        .expression ⟨";b*,c", .pathParameter, [⟨"b", true, none⟩, ⟨"c", false, none⟩]⟩] := by cbv
  have environment : Datum.environmentOf [(.text "a", .scalar "xy"), (.text "b", .list [";", ""]),
      (.text "c", .scalar [⟨0xd800, by decide⟩])] = fun name : Text =>
        if name = "a" then some (.scalar "xy") else if name = "b" then some (.list [";", ""])
        else if name = "c" then some (.scalar [⟨0xd800, by decide⟩]) else none := by
    funext name
    simp only [Datum.environmentOf_cons]
    rfl
  have complete : ∀ e ∈ Segment.expressions
      [.expression ⟨"a:1", .simple, [⟨"a", false, some 1⟩]⟩,
        .expression ⟨";b*,c", .pathParameter, [⟨"b", true, none⟩, ⟨"c", false, none⟩]⟩],
      e.Complete (Datum.environmentOf [(.text "a", .scalar "xy"), (.text "b", .list [";", ""]),
        (.text "c", .scalar [⟨0xd800, by decide⟩])]) := by
    rw [environment, Segment.expressions_expression_cons, Segment.expressions_expression_cons,
      Segment.expressions_nil, List.forall_mem_cons, List.forall_mem_singleton]
    constructor
    · exact ⟨fun _ => List.forall_mem_singleton.mpr ⟨"xy", rfl, by decide⟩,
        fun marked => absurd rfl marked⟩
    · refine ⟨fun unmarked => absurd unmarked (by decide), fun _ _ => ?_⟩
      constructor
      · exact List.forall_mem_cons.mpr
          ⟨⟨"b=%3B;b=", by decide⟩, List.forall_mem_singleton.mpr ⟨"c=%ED%A0%80", by decide⟩⟩
      · exact ⟨⟨"c", false, none⟩, by decide, "c=%ED%A0%80", by decide, by decide⟩
  obtain ⟨expanded, expands, _, admitted⟩ :=
    admits_expandText _ _ parsed (.mapping .plain [(.text "a", .text "xy"),
      (.text "b", .list [.text ";", .text ""]), (.text "c", .text [⟨0xd800, by decide⟩])]) _ rfl
      complete
  exact ⟨expanded, expands, admitted⟩

end UriTemplate
