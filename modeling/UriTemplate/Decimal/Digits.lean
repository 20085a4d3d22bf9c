import UriTemplate.Text.CodePoint

/-!
Whole numbers in decimal. Numerals of more than `maxDigits` digits are not converted, in either
direction, so that no input makes the quadratic conversion expensive.
-/

namespace UriTemplate.Decimal

def maxDigits : Nat := 4300

def digits (n : Nat) : Text := (Nat.toDigits 10 n).map CodePoint.ofChar

def value (t : Text) : Nat := t.foldl (fun n c => n * 10 + (c.value - 0x30)) 0

def isNumeral (t : Text) : Bool := !t.isEmpty && t.all CodePoint.isDigit

def signed : Int → Text
  | .ofNat n => digits n
  | .negSucc n => '-' :: digits (n + 1)

def isWritable (n : Int) : Bool := n.natAbs < Nat.pow 10 maxDigits

end UriTemplate.Decimal
