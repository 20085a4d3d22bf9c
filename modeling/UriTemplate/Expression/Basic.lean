import UriTemplate.Decimal.Numeral
import UriTemplate.Operator.Basic

/-!
Expressions, the parts of a template in braces: an operator and a list of variable specifications,
each a name with at most one of the modifiers `*` (explode) and `:N` (cut to `N` code points), or
both. Any text can stand between braces; only a numeral too long to be read is refused.
-/

namespace UriTemplate

structure Varspec where
  name : Text
  explode : Bool
  maxLength : Option Nat
deriving DecidableEq

structure Expression where
  body : Text
  operator : Operator
  varspecs : List Varspec
deriving DecidableEq

namespace Varspec

def maxLengthOf (modifier : Text) : Except Fault (Option Nat) :=
  if Decimal.isNumeral modifier then (Decimal.read modifier).map some else .ok none

/-- A star at the end marks explode. The name ends at the first colon left. -/
def ofText (t : Text) : Except Fault Varspec :=
  let explode : Bool := t.getLast? = some '*'
  let t := if explode then t.dropLast else t
  let name := t.takeWhile (· ≠ (':' : CodePoint))
  match t.dropWhile (· ≠ (':' : CodePoint)) with
  | [] => .ok ⟨name, explode, none⟩
  | _ :: modifier => (maxLengthOf modifier).map fun maxLength => ⟨name, explode, maxLength⟩

def toText (v : Varspec) : Text :=
  let modifier : Text := match v.maxLength with
    | some n => ':' :: Decimal.digits n
    | none => []
  let star : Text := if v.explode then ['*'] else []
  v.name ++ modifier ++ star

end Varspec

namespace Expression

def operatorAndList : Text → Operator × Text
  | [] => (.simple, [])
  | c :: rest =>
    match Operator.ofMarker? c with
    | some op => (op, rest)
    | none => (.simple, c :: rest)

def ofBody (body : Text) : Except Fault Expression := do
  let (operator, list) := operatorAndList body
  let varspecs ← (Text.splitOn ',' list).mapM Varspec.ofText
  return ⟨body, operator, varspecs⟩

def bodyOf (operator : Operator) (varspecs : List Varspec) : Text :=
  operator.marker?.toList ++ Text.joined "," (varspecs.map Varspec.toText)

def names (e : Expression) : List Text := e.varspecs.map Varspec.name

end Expression

end UriTemplate
