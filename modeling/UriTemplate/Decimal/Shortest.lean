import UriTemplate.Decimal.Binary64

/-!
The shortest decimal of a binary number: of the decimals that are nearer to the number than to any
other, or as near and the tie goes its way, one with the fewest digits, and of those the nearest.
-/

namespace UriTemplate.Decimal

structure Scaled where
  significand : Nat
  exponent : Int

/-- The interval of reals that are read back as a finite number other than zero, in quarters of
that number's unit in the last place. The ends belong to it when the significand is even. -/
structure Neighbourhood where
  low : Nat
  centre : Nat
  high : Nat
  closed : Bool

def neighbourhood (significand : Nat) (exponent : Int) : Neighbourhood :=
  let narrow := significand = Nat.pow 2 52 ∧ Binary64.leastExponent < exponent
  { low := 4 * significand - (if narrow then 1 else 2)
    centre := 4 * significand
    high := 4 * significand + 2
    closed := significand % 2 = 0 }

def leadingZeros (fuel numerator denominator : Nat) : Nat :=
  match fuel with
  | 0 => 0
  | fuel + 1 =>
    if denominator ≤ numerator then 0 else leadingZeros fuel (numerator * 10) denominator + 1

def magnitude (significand : Nat) (exponent : Int) : Int :=
  let (up, down) := Binary64.power 2 exponent
  let numerator := significand * up
  if down ≤ numerator then (digits (numerator / down)).length
  else 1 - Int.ofNat (leadingZeros 400 numerator down)

/-- The decimal nearest to the number among the multiples of `10^place` that are read back as it,
if there is one. A tie goes to the even multiple. -/
def onGrid? (significand : Nat) (exponent place : Int) : Option Scaled :=
  let around := neighbourhood significand exponent
  let (tenUp, tenDown) := Binary64.power 10 place
  let (twoUp, twoDown) := Binary64.power 2 (exponent - 2)
  let grid (multiple : Nat) := multiple * tenUp * twoDown
  let real (quarters : Nat) := quarters * twoUp * tenDown
  let inside (multiple : Nat) :=
    if around.closed then real around.low ≤ grid multiple ∧ grid multiple ≤ real around.high
    else real around.low < grid multiple ∧ grid multiple < real around.high
  let below := real around.centre / grid 1
  let gap := real around.centre - grid below
  let gapAbove := grid (below + 1) - real around.centre
  let preferBelow := gap < gapAbove ∨ gap = gapAbove ∧ below % 2 = 0
  if inside below ∧ (preferBelow ∨ ¬inside (below + 1)) then some ⟨below, place⟩
  else if inside (below + 1) then some ⟨below + 1, place⟩
  else none

def Scaled.trimmed (fuel : Nat) (x : Scaled) : Scaled :=
  match fuel with
  | 0 => x
  | fuel + 1 =>
    if x.significand ≠ 0 ∧ x.significand % 10 = 0 then
      Scaled.trimmed fuel ⟨x.significand / 10, x.exponent + 1⟩
    else x

/-- Seventeen digits always suffice, so the search does not fail on a finite number. -/
def shortest (significand : Nat) (exponent : Int) : Scaled :=
  let top := magnitude significand exponent
  let found := (List.range 17).findSome? fun i => onGrid? significand exponent (top - 1 - Int.ofNat i)
  (found.getD ⟨significand, exponent⟩).trimmed 20

end UriTemplate.Decimal
