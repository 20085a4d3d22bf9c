import UriTemplate.Proofs.Extraction.Reading
import UriTemplate.Proofs.Standard.Conformance
import UriTemplate.Proofs.Text.Unescaping

/-!
What extraction makes of the strings it captures. Each is decoded locally: its groups of escapes
become the texts of their octets, one by one, and the rest of it is kept.
-/

namespace UriTemplate

theorem Percent.decode_of_not_hasEscape {t : Text} (free : ¬ Standard.HasEscape t) :
    decode t = t := by
  induction t with
  | nil => exact decode_eq_nil_iff.mpr rfl
  | cons c rest ih =>
      have unescaped : firstEscape? (c :: rest) = none := by
        match rest with
        | [] => rfl
        | [_] => rfl
        | high :: low :: rest =>
            rw [firstEscape?, ← Option.not_isSome_iff_eq_none]
            exact fun escaped => free ⟨[], c, high, low, rest, rfl, escaped⟩
      rw [decode_kept unescaped, ih fun escape => free (escape.cons c)]

/-- The value is what the captured string is decoded to locally, and nothing else is; so it is the
string where there is nothing to decode, it is not empty unless the string is, and it has no
surrogate of its own. -/
structure Stores (string value : Text) : Prop where
  locally : ∀ other, Percent.DecodesLocally string other ↔ other = value
  unchanged : ¬ Standard.HasEscape string → value = string
  nonempty : string ≠ [] → value ≠ []
  scalars : string.hasSurrogate = false → value.hasSurrogate = false

theorem stores_decode (string : Text) : Stores string (Percent.decode string) where
  locally _ := Percent.decodesLocally_iff
  unchanged := Percent.decode_of_not_hasEscape
  nonempty := Percent.decode_eq_nil_iff.not.mpr
  scalars := Percent.hasSurrogate_decode

theorem Template.exists_segments_of_extract {t : Template} {candidate : Text} {values : Extracted}
    (extracted : t.extract candidate = .ok (some values)) :
    ∃ segments, t.segments = .ok segments := by
  cases parsed : t.segments with
  | ok segments => exact ⟨segments, rfl⟩
  | error fault =>
      rw [extract, make_of_refused parsed] at extracted
      cases fault <;> exact absurd extracted (by simp)

/-- Extraction captures the strings of the greatest reading and puts, for the name at each place,
what the string there is decoded to locally. -/
theorem extractText_stores (t : Template) (candidate : Text) (values : Extracted)
    (extracted : extractText (.text t.text) (.text candidate) = .ok (some values)) :
    ∃ segments strings decoded, t.segments = .ok segments ∧
      GreatestReading segments strings candidate ∧ List.Forall₂ Stores strings decoded ∧
      values = Entries.putAll [] ((Segment.names segments).zip decoded) := by
  rw [extractText_text] at extracted
  obtain ⟨segments, parsed⟩ := Template.exists_segments_of_extract extracted
  rw [Template.extract_eq parsed, Except.ok.injEq, Option.map_eq_some_iff] at extracted
  obtain ⟨strings, captured, made⟩ := extracted
  refine ⟨segments, strings, strings.map Percent.decode, parsed,
    greatestReading_iff.mpr captured, ?_, made.symm⟩
  rw [List.forall₂_map_right_iff, List.forall₂_same]
  exact fun string _ => stores_decode string

theorem extractText_stores_malformed :
    Stores "x%C3%28%zz" "x\ufffd(%zz" ∧ Stores "%e2%82/%ac" "\ufffd/\ufffd" := by
  have parsed : Template.segments ⟨"\x7ba\x7d/\x7b+b\x7d"⟩ =
      .ok [.expression ⟨"a", .simple, [⟨"a", false, none⟩]⟩, .literal "/",
        .expression ⟨"+b", .reserved, [⟨"b", false, none⟩]⟩] := by cbv
  have captured : Pattern.captures? (Pattern.ofSegments
      [.expression ⟨"a", .simple, [⟨"a", false, none⟩]⟩, .literal "/",
        .expression ⟨"+b", .reserved, [⟨"b", false, none⟩]⟩]) "x%C3%28%zz/%e2%82/%ac" =
          some [("x%C3%28%zz" : Text), ("%e2%82/%ac" : Text)] := by decide
  have decoded : [("x%C3%28%zz" : Text), ("%e2%82/%ac" : Text)].map Percent.decode =
      ["x\ufffd(%zz", "\ufffd/\ufffd"] := by
    rw [List.map_congr_left fun t member => Percent.decode_of_ascii (by revert t; decide)]
    decide
  have extracted := extractText_text "\x7ba\x7d/\x7b+b\x7d" "x%C3%28%zz/%e2%82/%ac"
  rw [Template.extract_eq parsed, captured, Option.map_some, decoded] at extracted
  obtain ⟨segments, strings, values, read, greatest, stored, made⟩ :=
    extractText_stores ⟨"\x7ba\x7d/\x7b+b\x7d"⟩ _ _ extracted
  rw [parsed, Except.ok.injEq] at read
  subst read
  rw [greatestReading_iff, captured, Option.some.injEq] at greatest
  subst greatest
  cases stored with
  | cons first others =>
      cases others with
      | cons second none =>
          cases none
          change ([("a", "x\ufffd(%zz"), ("b", "\ufffd/\ufffd")] : Extracted) =
            ([("a", _), ("b", _)] : Extracted) at made
          obtain ⟨firstSame, secondSame⟩ := List.cons.inj made
          rw [(Prod.mk.inj firstSame).2, (Prod.mk.inj (List.cons.inj secondSame).1).2]
          exact ⟨first, second⟩

end UriTemplate
