import UriTemplate.Text.CodePoint

/-!
What a variable can be bound to. A variable that is bound to nothing is absent.
-/

namespace UriTemplate

inductive Binding
  | scalar (value : Text)
  | list (items : List Text)
  | map (pairs : List (Text × Text))
deriving DecidableEq

abbrev Environment := Text → Option Binding

end UriTemplate
