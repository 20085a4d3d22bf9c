import UriTemplate.Binding
import UriTemplate.Fault
import UriTemplate.Text.Percent

/-!
How each operator renders one variable. A variable renders to `none` when it contributes nothing at
all, which is not the same as contributing an empty text.
-/

namespace UriTemplate.Operator

def encode (op : Operator) (t : Text) : Text := Percent.encode op.allowed t

def named (op : Operator) (name rendered : Text) : Text := op.encode name ++ .ofChar '=' :: rendered

def named? (op : Operator) (name rendered : Text) : Except Fault Text :=
  if op.isNamed then .ok (op.named name rendered) else .error (.unnamed op)

def renderScalar (op : Operator) (value : Text) (maxLength : Option Int) : Text :=
  op.encode (match maxLength with
    | some length => value.cut length
    | none => value)

/-- A named operator writes the name and the value. An empty path parameter is its bare name,
whether or not there is a length to cut it to. -/
def renderString (op : Operator) (name value : Text) (maxLength : Option Int) : Text :=
  if op = pathParameter ∧ value = [] then op.encode name
  else if op.isNamed then op.named name (op.renderScalar value maxLength)
  else op.renderScalar value maxLength

def separator (op : Operator) (explode : Bool) : Text := if explode then [op.joiner] else [',']

def renderList (op : Operator) (name : Text) (items : List Text) (explode : Bool) : Text :=
  if op.isNamed then
    if explode then Text.joined [op.joiner] (items.map fun item => op.named name (op.encode item))
    else op.named name (Text.joined [','] (items.map op.encode))
  else Text.joined (op.separator explode) (items.map op.encode)

def renderPair (op : Operator) (explode : Bool) (pair : Text × Text) : Text :=
  op.encode pair.1 ++ (if explode then .ofChar '=' else .ofChar ',') :: op.encode pair.2

/-- The keys of an exploded map take the place of the variable's name. -/
def renderMap (op : Operator) (name : Text) (pairs : List (Text × Text)) (explode : Bool) : Text :=
  let rendered := Text.joined (op.separator explode) (pairs.map (op.renderPair explode))
  if op.isNamed && !explode then op.named name rendered else rendered

def render (op : Operator) (name : Text) (binding : Option Binding) (explode : Bool)
    (maxLength : Option Int) : Option Text :=
  match binding with
  | none => none
  | some (.scalar value) => some (op.renderString name value maxLength)
  | some (.list items) =>
    if items.isEmpty && op.omitsEmptyList then none else some (op.renderList name items explode)
  | some (.map pairs) =>
    if pairs.isEmpty && op.omitsEmptyMap then none else some (op.renderMap name pairs explode)

end UriTemplate.Operator
