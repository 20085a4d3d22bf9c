import UriTemplate.Binding
import UriTemplate.Datum.Kind
import UriTemplate.Decimal.Binary64
import UriTemplate.Template.Basic

/-!
Dynamic values, as callers supply them for templates, candidates and variables.
-/

namespace UriTemplate

inductive MappingKind
  | plain
  | ordered
  | view
deriving DecidableEq

inductive Datum
  | none
  | bool (value : Bool)
  | int (value : Int)
  | float (value : Binary64)
  | text (value : Text)
  | octets (bytes : List UInt8)
  | list (items : List Datum)
  | tuple (items : List Datum)
  | mapping (kind : MappingKind) (entries : List (Datum × Datum))
  | binding (value : Binding)
  | template (value : Template)

namespace Datum

def kind : Datum → Kind
  | none => .none
  | bool _ => .bool
  | int _ => .int
  | float _ => .float
  | text _ => .text
  | octets _ => .octets
  | list _ => .list
  | tuple _ => .tuple
  | mapping .plain _ => .mapping
  | mapping .ordered _ => .orderedMapping
  | mapping .view _ => .mappingView
  | binding (.scalar _) => .scalarBinding
  | binding (.list _) => .listBinding
  | binding (.map _) => .mapBinding
  | template _ => .template

def isFalsy : Datum → Bool
  | none => true
  | bool value => !value
  | int value => value = 0
  | float value => value.isZero
  | text value => value.isEmpty
  | octets bytes => bytes.isEmpty
  | list items => items.isEmpty
  | tuple items => items.isEmpty
  | mapping _ entries => entries.isEmpty
  | binding _ => false
  | template _ => false

/-- The members of a value that can be run through: the characters of a text, the numbers of
octets, the items of a list, the keys of a mapping, and the one field of a template with its
name. -/
def members? : Datum → Option (List Datum)
  | text value => some (value.map fun c => text [c])
  | octets bytes => some (bytes.map fun byte => int byte.toNat)
  | list items => some items
  | tuple items => some items
  | mapping _ entries => some (entries.map Prod.fst)
  | template value => some [tuple [text "root", text value.text]]
  | _ => Option.none

mutual

def unhashable? : Datum → Option Kind
  | list items => some (list items).kind
  | mapping kind entries => some (mapping kind entries).kind
  | tuple items => unhashableIn? items
  | _ => Option.none

def unhashableIn? : List Datum → Option Kind
  | [] => Option.none
  | item :: rest => (unhashable? item).or (unhashableIn? rest)

end

end Datum

end UriTemplate
