import UriTemplate.Proofs.Text.Json
import UriTemplate.Proofs.Text.Utf8
import UriTemplate.Template.TextRoot
import UriTemplate.Template.Validation

/-!
All ways to come by a template with a given text lead to the same template: construction from the
text or from its octets, validation, a template that has it, and the JSON document that such a
template is written as. Octets make a template when they are the UTF-8 of a text without surrogates,
and only then. All of this holds for any model that does what is documented.
-/

namespace UriTemplate

theorem RootModel.Documented.exists_dumpJson {model : RootModel} (documented : model.Documented)
    {s : Text} (scalars : s.hasSurrogate = false) :
    ∃ document, model.dumpJson s = .ok document ∧ Json.IsString document s := by
  obtain ⟨spelling, spells, written⟩ := documented.dumpJson_text
  have spelled : ∀ c ∈ s, Json.Spelling (spelling c) c :=
    fun c member => spells c (Text.hasSurrogate_eq_false_iff.mp scalars c member)
  exact ⟨_, written s scalars, _, Json.Spells.flatMap spelled, rfl⟩

theorem documented_textRoot : textRoot.Documented where
  construct_text _ _ := rfl
  construct_octets bytes s := by
    change TextRoot.construct (.octets bytes) = .ok s ↔ _
    simp only [TextRoot.construct]
    split
    · rename_i found
      rw [found, Except.ok.injEq, Option.some.injEq]
    · rename_i found
      rw [found]
      simp
  validate_text _ _ := rfl
  validateJson_string document s scalars string := by
    change TextRoot.validateJson (.text document) = .ok s
    simp only [TextRoot.validateJson, scalars, TextRoot.ofDocument, Option.bind_some,
      Json.read?_string string]
    rfl
  dump_root _ := rfl
  dumpJson_text := by
    refine ⟨Json.escapePoint, fun c _ => Json.spelling_escapePoint c, ?_⟩
    intro s scalars
    change TextRoot.dumpJson s = _
    rw [TextRoot.dumpJson, scalars]
    rfl

namespace Template

variable {s : Text} {t u : Template}

theorem equalsDatum_template_iff : t.equalsDatum (.template u) = true ↔ t.text = u.text := by
  change Datum.equal (.template t) (.template u) = true ↔ t.text = u.text
  rw [Datum.equal, decide_eq_true_iff]
  cases t
  cases u
  simp

section Model

variable [model : RootModel]

def throughJson (s : Text) : Except Fault Template := do
  let t ← new (.text s)
  let document ← t.toJson
  ofJson (.text document)

/-- The ways to come by a template with this text. -/
def constructions (s : Text) : List (Except Fault Template) :=
  [new (.text s), ofDatum (.text s), validate (.text s), new (.octets (Utf8.encode s)),
    ofDatum (.template ⟨s⟩), throughJson s]

theorem new_text (documented : model.Documented) (scalars : s.hasSurrogate = false) :
    new (.text s) = .ok ⟨s⟩ := by
  rw [new, documented.construct_text s scalars]
  rfl

theorem validate_text (documented : model.Documented) (scalars : s.hasSurrogate = false) :
    validate (.text s) = .ok ⟨s⟩ := by
  rw [validate, documented.validate_text s scalars]
  rfl

theorem new_octets_eq_ok_iff (documented : model.Documented) {bytes : List UInt8} :
    new (.octets bytes) = .ok t ↔ bytes = Utf8.encode t.text ∧ t.text.hasSurrogate = false := by
  rw [← Utf8.decode?_eq_some_iff, ← documented.construct_octets, new]
  cases RootModel.construct (.octets bytes) with
  | ok s =>
      cases t
      simp [Except.map]
  | error fault => simp [Except.map]

theorem throughJson_eq (documented : model.Documented) (scalars : s.hasSurrogate = false) :
    throughJson s = .ok ⟨s⟩ := by
  obtain ⟨document, written, string⟩ := documented.exists_dumpJson scalars
  have read := documented.validateJson_string document s
    (string.hasSurrogate_eq_false scalars) string
  rw [throughJson, new_text documented scalars]
  change ((⟨s⟩ : Template).toJson >>= fun document => ofJson (.text document)) = .ok ⟨s⟩
  rw [toJson, written]
  change ofJson (.text document) = .ok ⟨s⟩
  rw [ofJson, read]
  rfl

theorem construction_eq (documented : model.Documented) (scalars : s.hasSurrogate = false)
    {made : Except Fault Template} (member : made ∈ constructions s) : made = .ok ⟨s⟩ := by
  simp only [constructions, List.mem_cons, List.not_mem_nil, or_false] at member
  rcases member with rfl | rfl | rfl | rfl | rfl | rfl
  · exact new_text documented scalars
  · exact new_text documented scalars
  · exact validate_text documented scalars
  · exact (new_octets_eq_ok_iff documented).mpr ⟨rfl, scalars⟩
  · rfl
  · exact throughJson_eq documented scalars

/-- Whatever the model, as long as it does what is documented. -/
theorem constructions_agree (documented : model.Documented) (hashOfText : Text → Int) :
    (∀ s : Text, s.hasSurrogate = false → ∀ made ∈ constructions s,
      ∃ t, made = .ok t ∧ t.text = s ∧ (Datum.template t).display = .ok s ∧ t.dump = .text s ∧
        ∀ other ∈ constructions s, ∃ u, other = .ok u ∧
          t.equalsDatum (.template u) = true ∧ t.hashBy hashOfText = u.hashBy hashOfText) ∧
      (∀ (bytes : List UInt8) (t : Template),
        new (.octets bytes) = .ok t ↔
          bytes = Utf8.encode t.text ∧ t.text.hasSurrogate = false) ∧
      ∀ t u : Template, t.equalsDatum (.template u) = true ↔ t.text = u.text := by
  refine ⟨?_, fun _ _ => new_octets_eq_ok_iff documented, fun _ _ => equalsDatum_template_iff⟩
  intro s scalars made member
  refine ⟨⟨s⟩, construction_eq documented scalars member, rfl, rfl, documented.dump_root s, ?_⟩
  intro other listed
  exact ⟨⟨s⟩, construction_eq documented scalars listed, equalsDatum_template_iff.mpr rfl, rfl⟩

end Model

theorem constructions_agree_escapes :
    ∃ t, throughJson "\x7b+a\x7d\"\\\x01😀" = .ok t ∧
      t.toJson.toOption = some (Text.ofString "\"\x7b+a\x7d\\\"\\\\\\u0001😀\"") ∧
      t.dump = .text "\x7b+a\x7d\"\\\x01😀" := by
  obtain ⟨t, made, text, _, dumped, _⟩ := (constructions_agree documented_textRoot fun _ => 0).1
    "\x7b+a\x7d\"\\\x01😀" (by decide) (throughJson "\x7b+a\x7d\"\\\x01😀")
    (by simp [constructions])
  refine ⟨t, made, ?_, dumped⟩
  rw [toJson, text]
  decide

end Template

end UriTemplate
