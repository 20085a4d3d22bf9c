import UriTemplate.Text.CodePoint

/-!
Hexadecimal digits: written in either case, read in both.
-/

namespace UriTemplate.Hex

def digit (letter : CodePoint) (n : Nat) : CodePoint :=
  if n < 10 then .ofNat (0x30 + n) else .ofNat (letter.value + (n - 10))

def upperDigit (n : Nat) : CodePoint := digit 'A' n

def lowerDigit (n : Nat) : CodePoint := digit 'a' n

/-- The last `width` digits of a number, the most significant first. -/
def lower : (width : Nat) → Nat → Text
  | 0, _ => []
  | width + 1, n => lower width (n / 16) ++ [lowerDigit (n % 16)]

def value? (c : CodePoint) : Option Nat :=
  if 0x30 ≤ c.value ∧ c.value ≤ 0x39 then some (c.value - 0x30)
  else if 0x41 ≤ c.value ∧ c.value ≤ 0x46 then some (c.value - 0x37)
  else if 0x61 ≤ c.value ∧ c.value ≤ 0x66 then some (c.value - 0x57)
  else none

def number? (digits : Text) : Option Nat :=
  digits.foldlM (fun n c => (value? c).map fun digit => n * 16 + digit) 0

def octets? : Text → Option (List UInt8)
  | [] => some []
  | [_] => none
  | high :: low :: rest => do
    let h ← value? high
    let l ← value? low
    let bytes ← octets? rest
    return .ofNat (h * 16 + l) :: bytes

end UriTemplate.Hex
