import UriTemplate.Proofs.Extraction.RoundTrip

/-!
Extraction settles at once. Decoding makes one spelling of all escapes, puts the replacement
character for what is no UTF-8, and of several captures of a name the last one counts; but all of
this happens only the first time. What has been extracted and is written out by expansion is
extracted from there as it was.
-/

namespace UriTemplate

/-- A recoverable template that keeps every value whole, and whose reserved variable, if there is
one, is not used in an unmarked expression as well. -/
structure Restorable (segments : List (Segment Expression)) : Prop where
  recoverable : Recoverable segments
  whole : ∀ e ∈ Segment.expressions segments, ∀ v ∈ e.varspecs, v.maxLength = none
  alone : ∀ marked ∈ Segment.expressions segments, marked.operator = .reserved →
    ∀ unmarked ∈ Segment.expressions segments, unmarked.operator = .simple →
      ∀ name ∈ marked.names, name ∉ unmarked.names

section

variable {segments : List (Segment Expression)} {strings : List Text} {candidate : Text}
  {values : Extracted}

theorem exists_capture (reads : Reads segments strings candidate)
    (decodes : Decodes (Segment.names segments) strings values) {name : Text}
    (member : name ∈ Segment.names segments) :
    ∃ e ∈ Segment.expressions segments, ∃ string ∈ strings, name ∈ e.names ∧ e.Admits string ∧
      values.lookup name = some (Percent.decode string) := by
  obtain ⟨string, last, paired⟩ := exists_lastString reads.length_eq member
  obtain ⟨e, listed, named, admits⟩ := reads.exists_occurrence paired
  exact ⟨e, listed, string, (List.of_mem_zip paired).2, named, admits,
    (decodes.lookup name _).mpr ⟨string, last, Percent.decodesLocally_decode string⟩⟩

theorem bindsScalars_extracted (restorable : Restorable segments)
    (reads : Reads segments strings candidate) (scalars : candidate.hasSurrogate = false)
    (decodes : Decodes (Segment.names segments) strings values) :
    BindsScalars (Segment.expressions segments)
      (fun name => (values.lookup name).map .scalar) (fun name => (values.lookup name).getD []) := by
  have capture {e : Expression} (listed : e ∈ Segment.expressions segments) {v : Varspec}
      (belongs : v ∈ e.varspecs) :=
    exists_capture reads decodes
      (List.mem_flatMap.mpr ⟨e, listed, List.mem_map_of_mem (f := Varspec.name) belongs⟩)
  constructor
  · intro e listed v belongs
    obtain ⟨_, _, string, _, _, _, found⟩ := capture listed belongs
    rw [found]
    rfl
  · intro e listed v belongs
    obtain ⟨_, _, string, member, _, _, found⟩ := capture listed belongs
    rw [found]
    apply Percent.hasSurrogate_decode
    rw [Text.hasSurrogate_eq_false_iff] at scalars ⊢
    exact fun c inside => scalars c (reads.mem_of_mem member inside)
  · intro e listed unmarked v belongs
    obtain ⟨other, known, string, _, named, admits, found⟩ := capture listed belongs
    -- The name is one of an unmarked expression, so the capture that counts was made in one.
    have plain : other.operator = .simple := by
      rcases restorable.recoverable.operators other known with simple | ⟨reserved, _⟩
      · exact simple
      · exact absurd (List.mem_map_of_mem belongs)
          (restorable.alone other known reserved e listed unmarked v.name named)
    rw [Expression.Admits, if_pos plain] at admits
    rw [found]
    exact Percent.decode_eq_nil_iff.not.mpr admits.1
  · intro e listed v belongs length given
    rw [restorable.whole e listed v belongs] at given
    exact absurd given (Option.not_mem_none length)

end

theorem Recoverable.extract_expand {t : Template} {segments : List (Segment Expression)}
    (recoverable : Recoverable segments) (parsed : t.segments = .ok segments)
    {environment : Environment} {value : Text → Text}
    (binds : BindsScalars (Segment.expressions segments) environment value) :
    t.extract (segments.flatMap (Segment.expand environment)) =
      .ok (some ((Segment.names segments).eraseDups.map fun name => (name, value name))) := by
  have greatest := greatestReading_expand recoverable binds
  rw [Template.extract_eq parsed, greatestReading_iff.mp greatest, Option.map_some,
    decode_strings binds, ← Entries.putAll_graph, List.map_prod_left_eq_zip]
  rfl

/-- What is extracted from a text is extracted from its expansion again, whatever escapes the text
was written with. -/
theorem extractText_stable (t : Template) (segments : List (Segment Expression))
    (parsed : t.segments = .ok segments) (restorable : Restorable segments) (candidate : Text)
    (scalars : candidate.hasSurrogate = false) (values : Extracted)
    (extracted : extractText (.text t.text) (.text candidate) = .ok (some values)) :
    ∃ expanded,
      expandText (.text t.text)
        (.mapping .plain (values.map fun entry => (.text entry.1, .text entry.2))) = .ok expanded ∧
      extractText (.text t.text) (.text expanded) = .ok (some values) := by
  rw [extractText_text, Template.extract_eq parsed, Except.ok.injEq, Option.map_eq_some_iff]
    at extracted
  obtain ⟨strings, captured, made⟩ := extracted
  have reads := (greatestReading_iff.mpr captured).reads
  have decodes : Decodes (Segment.names segments) strings values :=
    made ▸ decodes_putAll reads.length_eq
  have distinct : (values.map Prod.fst).Nodup := by
    rw [← made]
    apply Entries.nodup_putAll
    exact List.nodup_nil
  have binds := bindsScalars_extracted restorable reads scalars decodes
  rw [← funext (Datum.environmentOf_texts values)] at binds
  have coerced :
      (Datum.mapping .plain (values.map fun entry => (.text entry.1, .text entry.2))).coerceBindings =
        .ok (values.map fun entry => (.text entry.1, .scalar entry.2)) :=
    Datum.coerceBindings_map (fun _ => rfl) .plain values
  refine ⟨_, (expandText_text coerced).trans (Template.expand_eq parsed), ?_⟩
  rw [extractText_text, restorable.recoverable.extract_expand parsed binds, ← decodes.keys,
    Entries.map_fst_graph distinct]
  intro name value found
  rw [found]
  rfl

theorem extractText_stable_escapes :
    extractText (.text "\x7ba,b*\x7d/\x7b+c\x7d?\x7ba\x7d") (.text "x,%c3%a9%zz/\x7b%ff/?%41~") =
      .ok (some [("a", "A~"), ("b", "é%zz"), ("c", "\x7b\ufffd/")]) ∧
    ∃ expanded,
      expandText (.text "\x7ba,b*\x7d/\x7b+c\x7d?\x7ba\x7d") (.mapping .plain [(.text "a", .text "A~"),
        (.text "b", .text "é%zz"), (.text "c", .text "\x7b\ufffd/")]) = .ok expanded ∧
      extractText (.text "\x7ba,b*\x7d/\x7b+c\x7d?\x7ba\x7d") (.text expanded) =
        .ok (some [("a", "A~"), ("b", "é%zz"), ("c", "\x7b\ufffd/")]) := by
  have parsed : Template.segments ⟨"\x7ba,b*\x7d/\x7b+c\x7d?\x7ba\x7d"⟩ =
      .ok [.expression ⟨"a,b*", .simple, [⟨"a", false, none⟩, ⟨"b", true, none⟩]⟩, .literal "/",
        .expression ⟨"+c", .reserved, [⟨"c", false, none⟩]⟩, .literal "?",
        .expression ⟨"a", .simple, [⟨"a", false, none⟩]⟩] := by cbv
  have captured : Pattern.captures? (Pattern.ofSegments
      [.expression ⟨"a,b*", .simple, [⟨"a", false, none⟩, ⟨"b", true, none⟩]⟩, .literal "/",
        .expression ⟨"+c", .reserved, [⟨"c", false, none⟩]⟩, .literal "?",
        .expression ⟨"a", .simple, [⟨"a", false, none⟩]⟩]) "x,%c3%a9%zz/\x7b%ff/?%41~" =
          some [("x" : Text), ("%c3%a9%zz" : Text), ("\x7b%ff/" : Text), ("%41~" : Text)] := by decide
  have decoded : [("x" : Text), ("%c3%a9%zz" : Text), ("\x7b%ff/" : Text), ("%41~" : Text)].map
      Percent.decode = ["x", "é%zz", "\x7b\ufffd/", "A~"] := by
    rw [List.map_congr_left fun t member => Percent.decode_of_ascii (by revert t; decide)]
    decide
  have extracted := extractText_text "\x7ba,b*\x7d/\x7b+c\x7d?\x7ba\x7d" "x,%c3%a9%zz/\x7b%ff/?%41~"
  rw [Template.extract_eq parsed, captured, Option.map_some, decoded] at extracted
  exact ⟨extracted, extractText_stable _ _ parsed ⟨by decide, by decide, by decide⟩ _ (by decide) _
    extracted⟩

end UriTemplate
