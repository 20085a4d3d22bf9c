import UriTemplate.Datum.Basic
import UriTemplate.Decimal.Notation
import UriTemplate.Decimal.Numeral

/-!
The two texts of a dynamic value. Its quoted form shows what kind of value it is and is used for the
parts of a composite; its display form is the text itself for a text or a template, and the quoted
form for anything else.
-/

namespace UriTemplate.Datum

def quotedTuple (items : List Text) : Text :=
  let close : Text := if items.length = 1 then ",)" else ")"
  "(" ++ Text.joined ", " items ++ close

def quotedBinding : Binding → Text
  | .scalar value => "Scalar(value=" ++ Quoted.text value ++ ")"
  | .list items => "ListValue(items=" ++ quotedTuple (items.map Quoted.text) ++ ")"
  | .map pairs =>
    "MapValue(pairs=" ++
      quotedTuple (pairs.map fun pair => quotedTuple [Quoted.text pair.1, Quoted.text pair.2]) ++ ")"

def quotedEntryList (entries : List (Text × Text)) : Text :=
  "\x7b" ++ Text.joined ", " (entries.map fun entry => entry.1 ++ ": " ++ entry.2) ++ "\x7d"

def quotedOrdered (entries : List (Text × Text)) : Text :=
  if entries.isEmpty then "OrderedDict()"
  else "OrderedDict([" ++
    Text.joined ", " (entries.map fun entry => quotedTuple [entry.1, entry.2]) ++ "])"

def quotedMapping (kind : MappingKind) (entries : List (Text × Text)) : Text :=
  match kind with
  | .plain => quotedEntryList entries
  | .ordered => quotedOrdered entries
  | .view => "mappingproxy(" ++ quotedEntryList entries ++ ")"

mutual

def quoted : Datum → Except Fault Text
  | none => .ok "None"
  | bool value => .ok (if value then "True" else "False")
  | int value => Decimal.write value
  | float value => .ok (Decimal.written Decimal.plainStyle value)
  | text value => .ok (Quoted.text value)
  | octets bytes => .ok (Quoted.octets bytes)
  | list items => do
    let shown ← quotedAll items
    return "[" ++ Text.joined ", " shown ++ "]"
  | tuple items => do
    let shown ← quotedAll items
    return quotedTuple shown
  | mapping kind entries => do
    let shown ← quotedEntries entries
    return quotedMapping kind shown
  | binding value => .ok (quotedBinding value)
  | template value => .ok ("URITemplate(root=" ++ Quoted.text value.text ++ ")")

def quotedAll : List Datum → Except Fault (List Text)
  | [] => .ok []
  | item :: rest => do
    let shown ← quoted item
    let others ← quotedAll rest
    return shown :: others

def quotedEntries : List (Datum × Datum) → Except Fault (List (Text × Text))
  | [] => .ok []
  | (key, value) :: rest => do
    let shownKey ← quoted key
    let shownValue ← quoted value
    let others ← quotedEntries rest
    return (shownKey, shownValue) :: others

end

def display : Datum → Except Fault Text
  | text value => .ok value
  | template value => .ok value.text
  | mapping .view entries => quoted (mapping .plain entries)
  | other => quoted other

end UriTemplate.Datum
