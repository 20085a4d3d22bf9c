import UriTemplate.Datum.Basic
import UriTemplate.Fault
import UriTemplate.Text.JsonSyntax
import UriTemplate.Text.Utf8

/-!
What templates take from elsewhere: a model whose root is one text, with its construction, its
validation, and its written forms. Templates are defined for any such model; what is known of one is
only what it documents.
-/

namespace UriTemplate

class RootModel where
  /-- The root of a new value made from an argument. -/
  construct : Datum → Except Fault Text
  /-- The root of the value that a given one is accepted as. -/
  validate : Datum → Except Fault Text
  /-- The root of the value that a JSON document describes. -/
  validateJson : Datum → Except Fault Text
  dump : Text → Datum
  dumpJson : Text → Except Fault Text

namespace RootModel

/-- The documented behaviour. Lone surrogates are left open: a text that holds one has no UTF-8 and
no place in a JSON document. -/
structure Documented (model : RootModel) : Prop where
  construct_text : ∀ s : Text, s.hasSurrogate = false → model.construct (.text s) = .ok s
  /-- Octets are decoded strictly. -/
  construct_octets : ∀ bytes s,
    model.construct (.octets bytes) = .ok s ↔ Utf8.decode? bytes = some s
  validate_text : ∀ s : Text, s.hasSurrogate = false → model.validate (.text s) = .ok s
  /-- A string is read as what it spells, whichever spellings it uses. -/
  validateJson_string : ∀ document s : Text, document.hasSurrogate = false →
    Json.IsString document s → model.validateJson (.text document) = .ok s
  dump_root : ∀ s, model.dump s = .text s
  /-- Between quotation marks, each character is written in some spelling of it. -/
  dumpJson_text : ∃ spelling : CodePoint → Text,
    (∀ c, c.isSurrogate = false → Json.Spelling (spelling c) c) ∧
      ∀ s : Text, s.hasSurrogate = false →
        model.dumpJson s = .ok (.ofChar '"' :: (s.flatMap spelling ++ [.ofChar '"']))

end RootModel

end UriTemplate
