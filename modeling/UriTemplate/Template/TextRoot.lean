import UriTemplate.Template.RootModel
import UriTemplate.Text.JsonDocument

/-!
The model with a text as its root that templates run on. A text is accepted with lone surrogates
too, unless it has to pass through UTF-8 or JSON.
-/

namespace UriTemplate

namespace TextRoot

def construct : Datum → Except Fault Text
  | .text t => .ok t
  | .octets bytes =>
    match Utf8.decode? bytes with
    | some t => .ok t
    | none => .error .templateNotUnicode
  | _ => .error .templateNotText

def validate : Datum → Except Fault Text
  | .template t => .ok t.text
  | other => construct other

def ofDocument (document : Option Text) : Except Fault Text :=
  match document.bind Json.read? with
  | some (.string t) => .ok t
  | some .other => .error .templateNotText
  | none => .error .malformedJson

def validateJson : Datum → Except Fault Text
  | .text document =>
    if document.hasSurrogate then .error .templateNotUnicode else ofDocument (some document)
  | .octets bytes => ofDocument (Utf8.decode? bytes)
  | _ => .error .documentNotText

def dumpJson (t : Text) : Except Fault Text :=
  if t.hasSurrogate then .error .notSerializable else .ok (Json.writeString t)

end TextRoot

instance textRoot : RootModel where
  construct := TextRoot.construct
  validate := TextRoot.validate
  validateJson := TextRoot.validateJson
  dump := Datum.text
  dumpJson := TextRoot.dumpJson

end UriTemplate
