import UriTemplate.Interface
import UriTemplate.Proofs.Datum.Environment
import UriTemplate.Proofs.Expansion.Inert
import UriTemplate.Proofs.Extraction.Reading
import UriTemplate.Proofs.Template.Overlong

/-!
Requests on texts. Every text makes a template, and with texts, lists of texts and mappings of texts
for its variables every request is answered, unless the template is overlong; then all of them are
refused alike.
-/

namespace UriTemplate

namespace Datum

inductive Textual : Datum → Prop
  | text (value : Text) : Textual (.text value)
  | list (items : List Text) : Textual (.list (items.map .text))
  | mapping (kind : MappingKind) (pairs : List (Text × Text)) :
      Textual (.mapping kind (pairs.map fun pair => (.text pair.1, .text pair.2)))

theorem mapM_display_text (items : List Text) : (items.map text).mapM display = .ok items := by
  rw [mapM_eq_ok_iff, List.forall₂_map_left_iff, List.forall₂_same]
  intro item _
  rfl

theorem mapM_displayPair_text (pairs : List (Text × Text)) :
    (pairs.map fun pair => (text pair.1, text pair.2)).mapM displayPair = .ok pairs := by
  rw [mapM_eq_ok_iff, List.forall₂_map_left_iff, List.forall₂_same]
  intro pair _
  rfl

theorem Textual.exists_toBinding? {d : Datum} (textual : d.Textual) :
    ∃ binding, d.toBinding? = .ok binding := by
  cases textual with
  | text value => exact ⟨_, rfl⟩
  | list items =>
      have shown : listOf (.list (items.map .text)) = .ok (.list items) := by
        change ((items.map .text).mapM display >>= _) = _
        rw [mapM_display_text]
        rfl
      exact ⟨_, congrArg (Except.map some) shown⟩
  | mapping kind pairs =>
      have shown : mapOf (.mapping kind (pairs.map fun pair => (.text pair.1, .text pair.2))) =
          .ok (.map pairs) := by
        change ((pairs.map fun pair => (Datum.text pair.1, Datum.text pair.2)).mapM _ >>= _) = _
        rw [mapM_displayPair_text]
        rfl
      exact ⟨_, congrArg (Except.map some) shown⟩

end Datum

namespace Template

variable {t : Template}

theorem exists_expandWith (t : Template) (kind : MappingKind) {entries : List (Datum × Datum)}
    {overrides : List (Text × Datum)} (textual : ∀ entry ∈ entries, entry.2.Textual)
    (overriding : ∀ entry ∈ overrides, entry.2.Textual) :
    ∃ environment, t.expandWith (.mapping kind entries) overrides = t.expand environment := by
  have merged : ∀ entry ∈ Entries.putAll entries
      (overrides.map fun entry => (Datum.text entry.1, entry.2)), entry.2.Textual :=
    Entries.forall_value_putAll textual (List.forall_mem_map.mpr overriding)
  obtain ⟨bound, coerced⟩ := Datum.exists_coerceEntries fun entry listed =>
    (merged entry listed).exists_toBinding?
  exact ⟨Datum.environmentOf bound, expandWith_eq (Datum.assignments_mapping kind entries) coerced⟩

theorem answered_of_segments {segments : List (Segment Expression)}
    (parsed : t.segments = .ok segments) (candidate : Text) (environment : Environment) :
    (∃ names, t.variables = .ok names) ∧ (∃ expanded, t.expand environment = .ok expanded) ∧
      ∃ values, t.extract candidate = .ok values :=
  ⟨⟨_, variables_eq parsed⟩, ⟨_, expand_eq parsed⟩, ⟨_, extract_eq parsed candidate⟩⟩

theorem refused_of_segments {fault : Fault} (failed : t.segments = .error fault)
    (long : fault.IsLongNumeral) (candidate : Text) (environment : Environment) :
    t.variables = .error fault ∧ t.expand environment = .error fault ∧
      t.extract candidate = .error fault := by
  obtain ⟨digits, _, rfl⟩ := long
  refine ⟨?_, ?_, ?_⟩
  · simp only [Template.variables, expressions, failed, Except.map]
  · simp only [expand, failed, Except.map]
  · simp only [extract, make_of_refused failed]

end Template

theorem extract_text (t candidate : Text) :
    extract (.text t) (.text candidate) = Template.extract ⟨t⟩ candidate :=
  Template.extractFrom_text ⟨t⟩ candidate

theorem admits_text (t candidate : Text) :
    admits (.text t) (.text candidate) = (Template.extract ⟨t⟩ candidate).map Option.isSome := by
  rw [admits, extract_text]

section

variable {t : Text} (candidate : Text) (kind : MappingKind) {entries : List (Datum × Datum)}
  {overrides : List (Text × Datum)}

theorem requests_answered (sound : ¬ Template.Overlong ⟨t⟩)
    (textual : ∀ entry ∈ entries, entry.2.Textual)
    (overriding : ∀ entry ∈ overrides, entry.2.Textual) :
    (∃ names, «variables» (.text t) = .ok names) ∧
      (∃ expanded, expand (.text t) (.mapping kind entries) overrides = .ok expanded) ∧
      (∃ values, extract (.text t) (.text candidate) = .ok values) ∧
      ∃ verdict, admits (.text t) (.text candidate) = .ok verdict := by
  obtain ⟨environment, expands⟩ := Template.exists_expandWith ⟨t⟩ kind textual overriding
  have reading := Template.failsIff_segments ⟨t⟩
  cases parsed : Template.segments ⟨t⟩ with
  | error fault =>
      rw [parsed, FailsIff.error_iff] at reading
      exact absurd reading.1 sound
  | ok segments =>
      obtain ⟨names, ⟨expanded, whole⟩, values, found⟩ :=
        Template.answered_of_segments parsed candidate environment
      refine ⟨names, ⟨expanded, expands.trans whole⟩, ⟨values, ?_⟩, values.isSome, ?_⟩
      · rw [extract_text, found]
      · rw [admits_text, found]
        rfl

theorem requests_refused (long : Template.Overlong ⟨t⟩)
    (textual : ∀ entry ∈ entries, entry.2.Textual)
    (overriding : ∀ entry ∈ overrides, entry.2.Textual) :
    ∃ fault : Fault, fault.IsLongNumeral ∧ «variables» (.text t) = .error fault ∧
      expand (.text t) (.mapping kind entries) overrides = .error fault ∧
      extract (.text t) (.text candidate) = .error fault ∧
      admits (.text t) (.text candidate) = .error fault := by
  obtain ⟨environment, expands⟩ := Template.exists_expandWith ⟨t⟩ kind textual overriding
  have reading := Template.failsIff_segments ⟨t⟩
  cases parsed : Template.segments ⟨t⟩ with
  | ok segments =>
      rw [parsed, FailsIff.ok_iff] at reading
      exact absurd long reading
  | error fault =>
      rw [parsed, FailsIff.error_iff] at reading
      obtain ⟨names, expanded, values⟩ :=
        Template.refused_of_segments parsed reading.2 candidate environment
      refine ⟨fault, reading.2, names, expands.trans expanded, ?_, ?_⟩
      · rw [extract_text, values]
      · rw [admits_text, values]
        rfl

end

/-- Every text makes a template. Whatever the candidate and the textual variables, the requests are
all answered unless the template is overlong, and otherwise they all end in one fault, which says
that a numeral is too long. -/
theorem requests_answered_unless_overlong (t candidate : Text) (kind : MappingKind)
    (entries overrides : List (Text × Datum))
    (textual : ∀ entry ∈ entries ++ overrides, entry.2.Textual) :
    Template.ofDatum (.text t) = .ok ⟨t⟩ ∧
    (¬ Template.Overlong ⟨t⟩ →
      (∃ names, «variables» (.text t) = .ok names) ∧
      (∃ expanded, expand (.text t)
        (.mapping kind (entries.map fun entry => (.text entry.1, entry.2))) overrides =
          .ok expanded) ∧
      (∃ values, extract (.text t) (.text candidate) = .ok values) ∧
      ∃ verdict, admits (.text t) (.text candidate) = .ok verdict) ∧
    (Template.Overlong ⟨t⟩ → ∃ fault : Fault, fault.IsLongNumeral ∧
      «variables» (.text t) = .error fault ∧
      expand (.text t) (.mapping kind (entries.map fun entry => (.text entry.1, entry.2)))
        overrides = .error fault ∧
      extract (.text t) (.text candidate) = .error fault ∧
      admits (.text t) (.text candidate) = .error fault) := by
  rw [List.forall_mem_append] at textual
  have keyed : ∀ entry ∈ entries.map fun entry => (Datum.text entry.1, entry.2),
      entry.2.Textual := List.forall_mem_map.mpr textual.1
  refine ⟨rfl, ?_, ?_⟩
  · intro sound
    exact requests_answered candidate kind sound keyed textual.2
  · intro long
    exact requests_refused candidate kind long keyed textual.2

theorem requests_answered_stray :
    ∃ expanded, expand (.text (⟨0xd800, by decide⟩ :: Text.ofString "\x7b?a:12*\x7d\x7b"))
      (.mapping .plain [(.text "a", .list [.text "(", .text [⟨0xdfff, by decide⟩]])])
      [("b", .mapping .plain [(.text "c", .text "d")])] = .ok expanded := by
  have sound := Template.failsIff_segments
    ⟨⟨0xd800, by decide⟩ :: Text.ofString "\x7b?a:12*\x7d\x7b"⟩
  have parsed : Template.segments ⟨⟨0xd800, by decide⟩ :: Text.ofString "\x7b?a:12*\x7d\x7b"⟩ =
      .ok [.literal [⟨0xd800, by decide⟩], .expression ⟨"?a:12*", .query, [⟨"a", true, some 12⟩]⟩,
        .literal "\x7b"] := by cbv
  rw [parsed, FailsIff.ok_iff] at sound
  have list : Datum.Textual (.list [.text "(", .text [⟨0xdfff, by decide⟩]]) :=
    Datum.Textual.list ["(", [⟨0xdfff, by decide⟩]]
  have mapping : Datum.Textual (.mapping .plain [(.text "c", .text "d")]) :=
    Datum.Textual.mapping .plain [("c", "d")]
  have answered := requests_answered_unless_overlong
    (⟨0xd800, by decide⟩ :: Text.ofString "\x7b?a:12*\x7d\x7b") "" .plain [("a", _)] [("b", _)]
    (List.forall_mem_cons.mpr ⟨list, List.forall_mem_singleton.mpr mapping⟩)
  exact (answered.2.1 sound).2.1

def overlongBody : Text := .ofChar 'a' :: .ofChar ':' :: List.replicate 4301 (.ofChar '1')

def overlongTemplate : Template := ⟨[Segment.expression overlongBody].flatMap Segment.written⟩

theorem mem_overlongBody {c : CodePoint} (member : c ∈ overlongBody) :
    c = .ofChar 'a' ∨ c = .ofChar ':' ∨ c = .ofChar '1' := by
  rcases List.mem_cons.mp member with first | later
  · exact Or.inl first
  · rcases List.mem_cons.mp later with second | digit
    · exact Or.inr (Or.inl second)
    · exact Or.inr (Or.inr (List.eq_of_mem_replicate digit))

theorem overlong_overlongTemplate : overlongTemplate.Overlong := by
  have unclosed : .ofChar '}' ∉ overlongBody := fun member =>
    absurd (mem_overlongBody member) (by decide)
  have undivided : .ofChar ',' ∉ overlongBody := fun member =>
    absurd (mem_overlongBody member) (by decide)
  have canonical : Segment.Canonical [.expression overlongBody] :=
    Segment.Canonical.expression (List.cons_ne_nil _ _) unclosed Segment.Canonical.nil
  have bodies : overlongTemplate.bodies = [overlongBody] := by
    rw [Template.bodies, overlongTemplate, Segment.bodies_flatMap_written canonical]
    rfl
  refine ⟨overlongBody, by simp [bodies], overlongBody, ?_, ?_⟩
  · change overlongBody ∈ Text.splitOn (.ofChar ',') overlongBody
    rw [Text.splitOn_of_not_mem undivided]
    exact List.mem_singleton_self _
  · refine ⟨[.ofChar 'a'], List.replicate 4301 (.ofChar '1'), [], ?_, by decide, ?_, ?_, Or.inl rfl⟩
    · rw [List.append_nil]
      rfl
    · intro c member
      rw [List.eq_of_mem_replicate member]
      decide
    · rw [List.length_replicate]
      decide

/-- Not every request on a text is answered. -/
theorem requests_refused_overlong : ∃ fault : Fault, fault.IsLongNumeral ∧
    «variables» (.text overlongTemplate.text) = .error fault ∧
    expand (.text overlongTemplate.text) (.mapping .plain [(.text "a", .text "b")]) [] =
      .error fault ∧
    extract (.text overlongTemplate.text) (.text "b") = .error fault ∧
    admits (.text overlongTemplate.text) (.text "b") = .error fault := by
  have textual : ∀ entry ∈ [(Datum.text "a", Datum.text "b")], entry.2.Textual :=
    List.forall_mem_singleton.mpr (Datum.Textual.text "b")
  exact requests_refused "b" .plain overlong_overlongTemplate textual (List.forall_mem_nil _)

end UriTemplate
