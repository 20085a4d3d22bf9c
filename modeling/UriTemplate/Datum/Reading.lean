import UriTemplate.Datum.Coercion

/-!
Dynamic values where something more definite is wanted: a text, an operator, a variable
specification, an expression. What is refused, and how, depends on the first use that the value is
put to.
-/

namespace UriTemplate.Datum

def toOperator (d : Datum) : Except Fault Operator :=
  match d with
  | text value => .ok (.ofText value)
  | other => other.asKey.map fun _ => .simple

def encodable : Datum → Except Fault Text
  | text value => .ok value
  | _ => .error .notEncodable

def encodableItems (d : Datum) : Except Fault (List Text) := do
  let items ← d.members
  items.mapM encodable

def encodablePairs (d : Datum) : Except Fault (List (Text × Text)) := do
  let items ← d.members
  items.mapM fun item => do
    let (key, value) ← item.pair
    let key ← key.encodable
    let value ← value.encodable
    return (key, value)

def toText : Datum → Except Fault Text
  | text value => .ok value
  | octets _ => .error .octetsForText
  | other => .error (.otherForText other.kind)

def toTemplateText (d : Datum) : Except Fault Template := do
  -- A template is looked up among those read before, so what cannot be a key fails as such.
  let key ← d.asKey
  let t ← key.toText
  return ⟨t⟩

def toVarspec : Datum → Except Fault Varspec
  | text value => Varspec.ofText value
  | octets _ => .error .octetsEnding
  | other => .error (.lacks other.kind .ending)

/-- The expression that has a value as its body. The first part of the body is looked up among the
markers before the rest is divided. -/
def toExpression : Datum → Except Fault Expression
  | text value => Expression.ofBody value
  | octets _ => .error .octetsDivision
  | list items => .error (.notHashable (list items).kind)
  | tuple items =>
    match unhashableIn? (items.take 1) with
    | some kind => .error (.notHashable kind)
    | Option.none => .error (.lacks .tuple .division)
  | mapping .. => .error .rangeAsKey
  | other => .error (.notSubscriptable other.kind)

end UriTemplate.Datum
