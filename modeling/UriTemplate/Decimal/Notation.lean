import UriTemplate.Decimal.Shortest

/-!
The written form of a binary floating-point number: its shortest decimal, positional while the first
digit's exponent lies in a fixed range and with an exponent otherwise.
-/

namespace UriTemplate.Decimal

/-- The exponents written positionally run from `least` up to, not including, `limit`; a written
exponent has a sign and at least `exponentDigits` digits; a whole number keeps `.0`. -/
structure Style where
  least : Int
  limit : Int
  exponentDigits : Nat

def plainStyle : Style := ⟨-4, 16, 2⟩

def zeros (n : Nat) : Text := List.replicate n '0'

def positional (shown : Text) (exponent : Int) : Text :=
  if exponent < 0 then "0." ++ zeros (exponent.natAbs - 1) ++ shown
  else
    let whole := exponent.toNat + 1
    if shown.length ≤ whole then shown ++ zeros (whole - shown.length) ++ ".0"
    else shown.take whole ++ "." ++ shown.drop whole

def withExponent (style : Style) (shown : Text) (exponent : Int) : Text :=
  let power := digits exponent.natAbs
  let mantissa : Text := match shown with
    | first :: second :: rest => first :: '.' :: second :: rest
    | _ => shown
  mantissa ++ (['e', if exponent < 0 then '-' else '+'] : Text) ++
    zeros (style.exponentDigits - power.length) ++ power

def written (style : Style) : Binary64 → Text
  | .nan => "nan"
  | .infinite negative => if negative then "-inf" else "inf"
  | .finite negative significand exponent =>
    let body :=
      if significand = 0 then positional ['0'] 0
      else
        let x := shortest significand exponent
        let shown := digits x.significand
        let first := x.exponent + Int.ofNat shown.length - 1
        if style.least ≤ first ∧ first < style.limit then positional shown first
        else withExponent style shown first
    if negative then '-' :: body else body

end UriTemplate.Decimal
