import UriTemplate.Decimal.Digits

/-!
Binary floating-point numbers of 64 bits, as exact values. A finite number is a significand below
2^53 times a power of two not below 2^-1074; the significand is at least 2^52 unless the power is
the least one, so each number has one representation.
-/

namespace UriTemplate

inductive Binary64
  | nan
  | infinite (negative : Bool)
  | finite (negative : Bool) (significand : Nat) (exponent : Int)
deriving DecidableEq

namespace Binary64

def leastExponent : Int := -1074

def greatestExponent : Int := 971

def roundedQuotient (numerator denominator : Nat) : Nat :=
  let floor := numerator / denominator
  let rest := numerator % denominator * 2
  if rest < denominator then floor
  else if denominator < rest then floor + 1
  else floor + floor % 2

def power (factor : Nat) (exponent : Int) : Nat × Nat :=
  (Nat.pow factor exponent.toNat, Nat.pow factor (-exponent).toNat)

def ofFraction (negative : Bool) (numerator denominator : Nat) : Binary64 :=
  if numerator = 0 then .finite negative 0 leastExponent
  else
    let estimate : Int := Int.ofNat numerator.log2 - Int.ofNat denominator.log2 - 52
    let scaled (exponent : Int) : Nat × Nat :=
      let (up, down) := power 2 exponent
      (numerator * down, denominator * up)
    let (n, d) := scaled estimate
    let exponent := max leastExponent (if n / d < Nat.pow 2 52 then estimate - 1 else estimate)
    let (n, d) := scaled exponent
    let significand := roundedQuotient n d
    let (significand, exponent) :=
      if significand = Nat.pow 2 53 then (Nat.pow 2 52, exponent + 1) else (significand, exponent)
    if greatestExponent < exponent then .infinite negative
    else .finite negative significand exponent

/-- The number nearest to `significand · 10^exponent`. Exponents far outside the range of the type
are decided without computing the power. -/
def ofDecimal (negative : Bool) (significand : Nat) (exponent : Int) : Binary64 :=
  if significand = 0 then .finite negative 0 leastExponent
  else
    let magnitude := Int.ofNat (Decimal.digits significand).length + exponent
    if 400 < magnitude then .infinite negative
    else if magnitude < -400 then .finite negative 0 leastExponent
    else
      let (up, down) := power 10 exponent
      ofFraction negative (significand * up) down

def isZero : Binary64 → Bool
  | .finite _ significand _ => significand = 0
  | _ => false

def equal : Binary64 → Binary64 → Bool
  | .nan, _ | _, .nan => false
  | x, y => (x.isZero && y.isZero) || x = y

def equalInt : Binary64 → Int → Bool
  | .finite negative significand exponent, n =>
    let (up, down) := power 2 exponent
    (if negative then -Int.ofNat (significand * up) else Int.ofNat (significand * up)) = n * down
  | _, _ => false

/-- The number written by a sign, digits with at most one point, and a power of ten behind `e`; or
one of the words `inf`, `infinity` and `nan` behind a sign. -/
def ofText? (t : Text) : Option Binary64 :=
  let lowered := t.map fun c => if 0x41 ≤ c.value ∧ c.value ≤ 0x5a then .ofNat (c.value + 0x20) else c
  let (negative, body) := match lowered with
    | c :: rest => if c = '-' then (true, rest) else if c = '+' then (false, rest) else (false, lowered)
    | [] => (false, [])
  if body = Text.ofString "inf" ∨ body = Text.ofString "infinity" then some (.infinite negative)
  else if body = Text.ofString "nan" then some .nan
  else do
    let (mantissa, exponent) ← match Text.splitOn 'e' body with
      | [mantissa] => some (mantissa, (0 : Int))
      | [mantissa, sign :: power] =>
        let (minus, power) := if sign = '-' then (true, power) else if sign = '+' then (false, power)
          else (false, sign :: power)
        if Decimal.isNumeral power then
          some (mantissa, if minus then -Int.ofNat (Decimal.value power) else Decimal.value power)
        else none
      | _ => none
    let (whole, fraction) ← match Text.splitOn '.' mantissa with
      | [whole] => some (whole, [])
      | [whole, fraction] => some (whole, fraction)
      | _ => none
    if Decimal.isNumeral (whole ++ fraction) then
      some (ofDecimal negative (Decimal.value (whole ++ fraction)) (exponent - fraction.length))
    else none

end Binary64

end UriTemplate
