import UriTemplate.Interface
import UriTemplate.Proofs.Template.Canonical

/-!
Expansion of an expression by its contributions, and of a template by its segments. Only what the
names of the template are bound to matters.
-/

namespace UriTemplate

variable {environment other : Environment}

namespace Expression

variable {op : Operator} {contributions : List Text}

theorem assemble_of_mem {contribution : Text} (member : contribution ∈ contributions)
    (nonempty : contribution ≠ []) :
    assemble op contributions = op.lead ++ Text.joined [op.joiner] contributions := by
  apply if_neg
  intro allEmpty
  exact nonempty (List.isEmpty_iff.mp (List.all_eq_true.mp allEmpty contribution member))

theorem length_assemble_le (op : Operator) (contributions : List Text) :
    (assemble op contributions).length ≤
      (op.lead ++ Text.joined [op.joiner] contributions).length := by
  unfold assemble
  split
  · exact Nat.zero_le _
  · exact Nat.le_refl _

theorem expand_congr {e : Expression}
    (agree : ∀ v ∈ e.varspecs, environment v.name = other v.name) :
    e.expand environment = e.expand other := by
  have same : e.contributions environment = e.contributions other := by
    apply List.filterMap_congr
    intro v listed
    rw [Varspec.render, Varspec.render, agree v listed]
  rw [expand, expand, same]

end Expression

namespace Template

variable {t : Template}

theorem expand_eq {segments : List (Segment Expression)} (parsed : t.segments = .ok segments) :
    t.expand environment = .ok (segments.flatMap (Segment.expand environment)) := by
  rw [expand, parsed]
  rfl

theorem expand_congr {names : List Text} (listed : t.variables = .ok names)
    (agree : ∀ name ∈ names, environment name = other name) :
    t.expand environment = t.expand other := by
  obtain ⟨segments, parsed, rfl⟩ := exists_segments listed
  rw [expand_eq parsed, expand_eq parsed]
  congr 1
  apply List.flatMap_congr
  intro segment inside
  cases segment with
  | literal run => rfl
  | expression e =>
      apply Expression.expand_congr
      intro v belongs
      apply agree
      rw [Segment.names, List.mem_flatMap]
      exact ⟨e, Segment.mem_expressions_iff.mpr inside, List.mem_map_of_mem belongs⟩

end Template

theorem Template.expandWith_eq {t : Template} {given : Datum} {overrides : List (Text × Datum)}
    {entries : List (Datum × Datum)} {bound : List (Datum × Binding)}
    (assigned : given.assignments = .ok entries)
    (coerced : Datum.coerceEntries (Entries.putAll entries
      (overrides.map fun entry => (.text entry.1, entry.2))) = .ok bound) :
    t.expandWith given overrides = t.expand (Datum.environmentOf bound) := by
  unfold expandWith
  rw [assigned]
  change (Datum.coerceEntries (Entries.putAll entries _) >>= _) = _
  rw [coerced]
  rfl

theorem expandText_text {t : Text} {bindings : Datum} {bound : List (Datum × Binding)}
    (coerced : bindings.coerceBindings = .ok bound) :
    expandText (.text t) bindings = Template.expand ⟨t⟩ (Datum.environmentOf bound) := by
  unfold expandText
  rw [coerced]
  rfl

end UriTemplate
