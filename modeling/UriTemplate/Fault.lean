import UriTemplate.Datum.Kind
import UriTemplate.Decimal.Digits
import UriTemplate.Operator.Basic

/-!
Everything that can go wrong, by cause, and the message each cause is reported with.
-/

namespace UriTemplate

inductive Defect
  | unclosedGroup (position : Nat)
  | danglingEscape (position : Nat)
  | badEscape (position : Nat)
  | strayOperator (position : Nat)
deriving DecidableEq

inductive Member
  | items
  | value
  | get
  | ending
  | division
deriving DecidableEq

inductive Fault
  | longNumeral (digits : Nat)
  | longInteger
  | missingItems (found : Nat)
  | surplusItems
  | notUnpackable (kind : Kind)
  | notIterable (kind : Kind)
  | notCallable (kind : Kind)
  | notHashable (kind : Kind)
  | notEncodable
  | entryNotSequence (position : Nat)
  | entryLength (position length : Nat)
  | lacks (kind : Kind) (member : Member)
  /-- An operator that writes no names is asked to write one. -/
  | unnamed (operator : Operator)
  | notSubscriptable (kind : Kind)
  /-- A mapping is asked for a range of positions. -/
  | rangeAsKey
  | octetsEnding
  /-- Octets are to be divided at a text. -/
  | octetsDivision
  | octetsForText
  | otherForText (kind : Kind)
  | templateNotText
  | templateNotUnicode
  | templateFrozen
  | documentNotText
  | malformedJson
  | notSerializable
  | unreadablePattern (template source : Text) (defect : Defect)
deriving DecidableEq

namespace Defect

def position : Defect → Nat
  | unclosedGroup position => position
  | danglingEscape position => position
  | badEscape position => position
  | strayOperator position => position

def phrase : Defect → Text
  | unclosedGroup _ => "missing ), unterminated subpattern at position "
  | danglingEscape _ => "bad escape (end of pattern) at position "
  | badEscape _ => "unknown escape at position "
  | strayOperator _ => "operator outside a group at position "

def message (defect : Defect) : Text := defect.phrase ++ Decimal.digits defect.position

end Defect

def Member.name : Member → Text
  | items => "items"
  | value => "value"
  | get => "get"
  | ending => "endswith"
  | division => "split"

namespace Fault

def tooManyDigits : Text := "Exceeds the limit (4300 digits) for integer string conversion"

def raiseLimit : Text := "; use sys.set_int_max_str_digits() to increase the limit"

def inQuotes (t : Text) : Text := "'" ++ t ++ "'"

def message : Fault → Text
  | longNumeral count =>
    tooManyDigits ++ ": value has " ++ Decimal.digits count ++ " digits" ++ raiseLimit
  | longInteger => tooManyDigits ++ raiseLimit
  | missingItems found =>
    "not enough values to unpack (expected 2, got " ++ Decimal.digits found ++ ")"
  | surplusItems => "too many values to unpack (expected 2)"
  | notUnpackable kind => "cannot unpack non-iterable " ++ kind.name ++ " object"
  | notIterable kind => inQuotes kind.name ++ " object is not iterable"
  | notCallable kind => inQuotes kind.name ++ " object is not callable"
  | notHashable kind => "unhashable type: " ++ inQuotes kind.name
  | notEncodable => "quote() doesn't support 'errors' for bytes"
  | entryNotSequence position =>
    "cannot convert dictionary update sequence element #" ++ Decimal.digits position ++
      " to a sequence"
  | entryLength position length =>
    "dictionary update sequence element #" ++ Decimal.digits position ++ " has length " ++
      Decimal.digits length ++ "; 2 is required"
  | lacks kind member =>
    inQuotes kind.name ++ " object has no attribute " ++ inQuotes member.name
  | unnamed operator => inQuotes operator.title ++ " object has no attribute 'named'"
  | notSubscriptable kind => inQuotes kind.name ++ " object is not subscriptable"
  | rangeAsKey => "unhashable type: 'slice'"
  | octetsEnding => "endswith first arg must be bytes or a tuple of bytes, not str"
  | octetsDivision => "a bytes-like object is required, not 'str'"
  | octetsForText => "cannot use a string pattern on a bytes-like object"
  | otherForText kind => "expected string or bytes-like object, got " ++ inQuotes kind.name
  | templateNotText => "string_type: Input should be a valid string"
  | templateNotUnicode =>
    "string_unicode: Input should be a valid string, " ++
      "unable to parse raw data as a unicode string"
  | templateFrozen => "frozen_instance: Instance is frozen"
  | documentNotText => "json_type: JSON input should be string, bytes or bytearray"
  | malformedJson => "json_invalid"
  | notSerializable => []
  | unreadablePattern template source defect =>
    "Invalid extraction pattern " ++ Quoted.text source ++ " for template " ++
      Quoted.text template ++ ": " ++ defect.message

end Fault

end UriTemplate
