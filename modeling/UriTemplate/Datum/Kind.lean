import UriTemplate.Text.CodePoint

/-!
The kinds of dynamic values and the names they go by in error messages.
-/

namespace UriTemplate

inductive Kind
  | none
  | bool
  | int
  | float
  | text
  | octets
  | list
  | tuple
  | mapping
  | orderedMapping
  | mappingView
  | scalarBinding
  | listBinding
  | mapBinding
  | template
deriving DecidableEq

def Kind.name : Kind → Text
  | none => "NoneType"
  | bool => "bool"
  | int => "int"
  | float => "float"
  | text => "str"
  | octets => "bytes"
  | list => "list"
  | tuple => "tuple"
  | mapping => "dict"
  | orderedMapping => "collections.OrderedDict"
  | mappingView => "mappingproxy"
  | scalarBinding => "Scalar"
  | listBinding => "ListValue"
  | mapBinding => "MapValue"
  | template => "URITemplate"

end UriTemplate
