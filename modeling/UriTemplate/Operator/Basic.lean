import UriTemplate.Text.Quoted

/-!
The eight expansion operators and what each of them fixes: its marker, what goes in front of an
expansion, what goes between the contributions of the variables, which characters are left
unencoded, whether the variable's name is written, and which empty values count as absent.
-/

namespace UriTemplate

inductive Operator
  | simple
  | reserved
  | fragment
  | label
  | pathSegment
  | pathParameter
  | query
  | continuation
deriving DecidableEq

namespace Operator

def marker? : Operator → Option CodePoint
  | simple => none
  | reserved => some '+'
  | fragment => some '#'
  | label => some '.'
  | pathSegment => some '/'
  | pathParameter => some ';'
  | query => some '?'
  | continuation => some '&'

/-- Written in front of an expansion that is not empty. -/
def lead : Operator → Text
  | simple | reserved => []
  | fragment => ['#']
  | label => ['.']
  | pathSegment => ['/']
  | pathParameter => [';']
  | query => ['?']
  | continuation => ['&']

/-- Written between the contributions of two variables, and between the members of an exploded
value. -/
def joiner : Operator → CodePoint
  | simple | reserved | fragment => ','
  | label => '.'
  | pathSegment => '/'
  | pathParameter => ';'
  | query | continuation => '&'

/-- The reserved characters that are left as they are. -/
def allowed : Operator → Text
  | reserved => ":/?#[]@!$&'()*+,;="
  | fragment => ":/?@!$&'()*+,;="
  | _ => []

def isNamed : Operator → Bool
  | pathParameter | query | continuation => true
  | _ => false

def omitsEmptyList : Operator → Bool
  | label | pathSegment | query | continuation => true
  | _ => false

def omitsEmptyMap : Operator → Bool
  | query | continuation => true
  | _ => false

def marked : List Operator :=
  [reserved, fragment, label, pathSegment, pathParameter, query, continuation]

def ofMarker? (c : CodePoint) : Option Operator := marked.find? fun op => op.marker? = some c

def ofText : Text → Operator
  | [c] => (ofMarker? c).getD simple
  | _ => simple

def title : Operator → Text
  | simple => "SimpleExpansion"
  | reserved => "ReservedExpansion"
  | fragment => "FragmentExpansion"
  | label => "LabelExpansion"
  | pathSegment => "PathSegmentExpansion"
  | pathParameter => "PathStyleExpansion"
  | query => "FormQueryExpansion"
  | continuation => "FormContinuationExpansion"

def description (op : Operator) : Text :=
  let shown : Text := match op.marker? with
    | some c => Quoted.text [c]
    | none => "None"
  op.title ++ "(marker=" ++ shown ++ ")"

theorem ofMarker?_of_marker? {op : Operator} {c : CodePoint} (marks : op.marker? = some c) :
    ofMarker? c = some op := by
  cases op <;> simp [marker?] at marks <;> subst marks <;> decide

theorem marker?_of_ofMarker? {op : Operator} {c : CodePoint} (found : ofMarker? c = some op) :
    op.marker? = some c := by
  simpa using List.find?_some found

end Operator

end UriTemplate
