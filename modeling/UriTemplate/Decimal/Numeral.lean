import UriTemplate.Fault

/-!
Reading and writing numerals, with the limit on their length enforced.
-/

namespace UriTemplate.Decimal

def read (numeral : Text) : Except Fault Nat :=
  if numeral.length ≤ maxDigits then .ok (value numeral) else .error (.longNumeral numeral.length)

def write (n : Int) : Except Fault Text :=
  if isWritable n then .ok (signed n) else .error .longInteger

def readSigned (numeral : Text) : Except Fault Int :=
  match Text.after? "-" numeral with
  | some magnitude => (read magnitude).map fun n => -Int.ofNat n
  | none => (read numeral).map Int.ofNat

end UriTemplate.Decimal
