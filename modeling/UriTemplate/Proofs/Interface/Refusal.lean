import UriTemplate.Proofs.Extraction.Transparency
import UriTemplate.Proofs.Interface.Totality
import UriTemplate.Proofs.Pattern.Source

/-!
A template is refused everywhere or nowhere. Reading it, listing its variables, making its pattern,
extracting, admitting and expanding all end in one and the same fault if a variable is overlong, and
otherwise none of them fails: the source made for a template can always be read, and the pattern has
a group for each variable.
-/

namespace UriTemplate

theorem Pattern.groups_ofSegments (segments : List (Segment Expression)) :
    (ofSegments segments).groups = (Segment.names segments).length := by
  rw [groups, List.countP_eq_length_filter, ← Place.map_token_ofSegments,
    Place.filter_isGroup_map_token, Place.filterMap_occurrence?_ofSegments, List.length_map,
    Segment.names_eq_map_occurrences, List.length_map]

theorem Pattern.length_captures {segments : List (Segment Expression)} {candidate : Text}
    {captures : List Text} (captured : (ofSegments segments).captures? candidate = some captures) :
    captures.length = (Segment.names segments).length :=
  (greatestReading_iff.mpr captured).reads.length_eq

namespace Template

structure Answered (t : Template) (candidate : Text) (bindings : Datum) (cache : PatternCache)
    (made : Compiled) (names : List Text) : Prop where
  segments : ∃ segments, t.segments = .ok segments
  listed : t.variables = .ok names
  source : t.patternSource = .ok made.source
  compiled : Compiled.make patternSource t = .ok made
  remembered : (cache.compile patternSource t).1 = .ok made
  extracted : ∃ values, extractText (.text t.text) (.text candidate) = .ok values ∧
    t.admits candidate = .ok values.isSome
  expanded : ∃ expanded, expandText (.text t.text) bindings = .ok expanded
  groups : made.pattern.groups = names.length
  captures : ∀ captures, made.pattern.captures? candidate = some captures →
    captures.length = names.length

structure Refused (t : Template) (candidate : Text) (bindings : Datum) (cache : PatternCache)
    (fault : Fault) : Prop where
  long : fault.IsLongNumeral
  segments : t.segments = .error fault
  listed : t.variables = .error fault
  source : t.patternSource = .error fault
  compiled : Compiled.make patternSource t = .error fault
  remembered : (cache.compile patternSource t).1 = .error fault
  extracted : extractText (.text t.text) (.text candidate) = .error fault
  admitted : t.admits candidate = .error fault
  expanded : expandText (.text t.text) bindings = .error fault

variable {t : Template} {candidate : Text} {bindings : Datum} {bound : List (Datum × Binding)}
  {cache : PatternCache}

theorem Answered.of_segments {segments : List (Segment Expression)}
    (parsed : t.segments = .ok segments) (coerced : bindings.coerceBindings = .ok bound)
    (genuine : cache.Genuine) :
    t.Answered candidate bindings cache
      ⟨(Pattern.ofSegments segments).source, Pattern.ofSegments segments⟩
      (Segment.names segments) where
  segments := ⟨segments, parsed⟩
  listed := variables_eq parsed
  source := patternSource_eq parsed
  compiled := make_patternSource parsed
  remembered := by
    rw [genuine.result_compile]
    exact make_patternSource parsed
  extracted := by
    refine ⟨_, (extractText_text t.text candidate).trans (extract_eq parsed candidate), ?_⟩
    rw [admits, extract_eq parsed]
    rfl
  expanded := ⟨_, (expandText_text coerced).trans (expand_eq parsed)⟩
  groups := Pattern.groups_ofSegments segments
  captures _ captured := Pattern.length_captures captured

theorem Refused.of_segments {fault : Fault} (parsed : t.segments = .error fault)
    (long : fault.IsLongNumeral) (coerced : bindings.coerceBindings = .ok bound)
    (genuine : cache.Genuine) : t.Refused candidate bindings cache fault := by
  obtain ⟨lists, expands, extracts⟩ :=
    refused_of_segments parsed long candidate (Datum.environmentOf bound)
  constructor
  case long => exact long
  case segments => exact parsed
  case listed => exact lists
  case source => exact patternSource_of_refused parsed
  case compiled => exact make_of_refused parsed
  case remembered =>
    rw [genuine.result_compile]
    exact make_of_refused parsed
  case extracted => exact (extractText_text t.text candidate).trans extracts
  case admitted =>
    rw [admits, extracts]
    rfl
  case expanded => exact (expandText_text coerced).trans expands

/-- Nothing that is done with a template fails, after whatever run, unless the template is overlong;
then all of it fails alike. So a source that is made for a template is never unreadable. -/
theorem refused_throughout (t : Template) (candidate : Text) (kind : MappingKind)
    (entries : List (Datum × Binding)) (steps : List Step) :
    ((¬ t.Overlong ∧ ∃ made names,
        t.Answered candidate (.mapping kind (entries.map fun entry => (entry.1, .binding entry.2)))
          (PatternCache.after steps) made names) ∨
      (t.Overlong ∧ ∃ fault,
        t.Refused candidate (.mapping kind (entries.map fun entry => (entry.1, .binding entry.2)))
          (PatternCache.after steps) fault)) ∧
    ∀ template source defect,
      Compiled.make patternSource t ≠ .error (.unreadablePattern template source defect) := by
  have reading := failsIff_segments t
  have coerced : (Datum.mapping kind
      (entries.map fun entry => (entry.1, .binding entry.2))).coerceBindings =
        .ok (entries.map fun entry => (entry.1, entry.2)) :=
    Datum.coerceBindings_map (fun _ => rfl) kind entries
  have genuine := PatternCache.genuine_after steps
  cases parsed : t.segments with
  | ok segments =>
      rw [parsed, FailsIff.ok_iff] at reading
      have answered : t.Answered candidate _ _ _ _ := Answered.of_segments parsed coerced genuine
      refine ⟨Or.inl ⟨reading, _, _, answered⟩, ?_⟩
      intro template source defect
      rw [answered.compiled]
      simp
  | error fault =>
      rw [parsed, FailsIff.error_iff] at reading
      have refused : t.Refused candidate _ _ fault :=
        Refused.of_segments parsed reading.2 coerced genuine
      refine ⟨Or.inr ⟨reading.1, fault, refused⟩, ?_⟩
      rintro template source defect unreadable
      obtain ⟨digits, _, rfl⟩ := reading.2
      rw [refused.compiled] at unreadable
      exact absurd (Except.error.inj unreadable) (by simp)

theorem refused_throughout_lengths :
    (∃ fault, overlongTemplate.Refused "b" (.mapping .plain [(.text "a", .binding (.scalar "b"))])
      (PatternCache.after [⟨.compile overlongTemplate, .broken⟩]) fault) ∧
    ∃ made, Answered ⟨"\x7ba::1,b:\u0663\x7d"⟩ "" (.mapping .plain []) (PatternCache.after [])
      made ["a", "b"] := by
  constructor
  · rcases (refused_throughout overlongTemplate "b" .plain [(.text "a", .scalar "b")]
      [⟨.compile overlongTemplate, .broken⟩]).1 with ⟨sound, _⟩ | ⟨_, fault, refused⟩
    · exact absurd overlong_overlongTemplate sound
    · exact ⟨fault, refused⟩
  · have parsed : Template.segments ⟨"\x7ba::1,b:\u0663\x7d"⟩ =
        .ok [.expression ⟨"a::1,b:\u0663", .simple, [⟨"a", false, none⟩, ⟨"b", false, none⟩]⟩] := by
      cbv
    rcases (refused_throughout ⟨"\x7ba::1,b:\u0663\x7d"⟩ "" .plain [] []).1 with
      ⟨_, made, names, answered⟩ | ⟨_, fault, refused⟩
    · have listed := answered.listed
      rw [variables_eq parsed, Except.ok.injEq] at listed
      rw [← listed] at answered
      exact ⟨made, answered⟩
    · rw [refused.segments] at parsed
      simp at parsed

end Template

end UriTemplate
