import BeaconScheduler.Decimal.Double

/-!
# The shortest decimal of a double

The text of a double has the fewest digits that are still nearer to it than to any other
double, and of those the digits nearest to it. They are written out in full, without an
exponent, and with one place after the point at least.
-/

set_option autoImplicit false

namespace BeaconScheduler.Decimal.Double

structure Ratio where
  num : Nat
  den : Nat

namespace Ratio

def le (a b : Ratio) : Bool :=
  a.num * b.den ≤ b.num * a.den

def lt (a b : Ratio) : Bool :=
  a.num * b.den < b.num * a.den

def scaled2 (n : Nat) (e : Int) : Ratio :=
  if 0 ≤ e then ⟨n * Nat.pow 2 e.toNat, 1⟩ else ⟨n, Nat.pow 2 (-e).toNat⟩

def scaled10 (n : Nat) (e : Int) : Ratio :=
  if 0 ≤ e then ⟨n * Nat.pow 10 e.toNat, 1⟩ else ⟨n, Nat.pow 10 (-e).toNat⟩

def floor10 (a : Ratio) (e : Int) : Nat :=
  if 0 ≤ e then a.num / (a.den * Nat.pow 10 e.toNat)
  else a.num * Nat.pow 10 (-e).toNat / a.den

/-- Whether `a` is nearer to `n` than to `n + 1` on the grid of multiples of `10 ^ e`. A tie goes
to the upper one. -/
def nearLower (a : Ratio) (n : Nat) (e : Int) : Bool :=
  let middle := scaled10 (2 * n + 1) e
  a.lt ⟨middle.num, 2 * middle.den⟩

end Ratio

/-- The numbers that round to the double: all between two ends, with the ends themselves if the
mantissa is even. -/
structure Range where
  low : Ratio
  high : Ratio
  closed : Bool

/-- Half way to the neighbours. Below a power of two the neighbour is only half as far, except
on the finest grid. -/
def rangeOf (mantissa : Nat) (exponent : Int) : Range :=
  let narrow := mantissa = Nat.pow 2 52 ∧ minExponent < exponent
  { low := if narrow then .scaled2 (4 * mantissa - 1) (exponent - 2) else .scaled2 (2 * mantissa - 1) (exponent - 1)
    high := .scaled2 (2 * mantissa + 1) (exponent - 1)
    closed := mantissa % 2 = 0 }

def Range.contains (r : Range) (a : Ratio) : Bool :=
  if r.closed then r.low.le a && a.le r.high else r.low.lt a && a.lt r.high

def pick? (r : Range) (a : Ratio) (e : Int) : Option Nat :=
  let n := a.floor10 e
  let lower := 0 < n && r.contains (.scaled10 n e)
  let upper := r.contains (.scaled10 (n + 1) e)
  if lower && (a.nearLower n e || !upper) then some n
  else if upper then some (n + 1)
  else none

/-- The coarsest of the grids from `10 ^ e` down that has a point in the range. -/
def search (r : Range) (a : Ratio) : Nat → Int → Nat × Int
  | 0, e => (a.floor10 e, e)
  | steps + 1, e =>
      match pick? r a e with
      | some n => (n, e)
      | none => search r a steps (e - 1)

/-- Digits and scale of the shortest decimal of a positive double. From the coarsest grid that can
have a point in any range, no more than 17 digits below the first are needed. -/
def shortest (mantissa : Nat) (exponent : Int) : Nat × Int :=
  let a := Ratio.scaled2 mantissa exponent
  let order : Int := ((mantissa.log2 : Int) + exponent) * 30103 / 100000 + 2
  search (rangeOf mantissa exponent) a 24 order

def positional (digits : Nat) (scale : Int) : String :=
  if 0 ≤ scale then
    toString (digits * Nat.pow 10 scale.toNat) ++ ".0"
  else
    let places := (-scale).toNat
    let whole := digits / Nat.pow 10 places
    let fraction := toString (digits % Nat.pow 10 places)
    toString whole ++ "." ++ String.ofList (List.replicate (places - fraction.length) '0') ++ fraction

def text : Double → String
  | .notANumber => "NaN"
  | .infinite negative => if negative then "-inf" else "inf"
  | .finite negative mantissa exponent =>
      (if negative then "-" else "") ++
        if mantissa = 0 then "0.0"
        else
          let (digits, scale) := shortest mantissa exponent
          positional digits scale

end BeaconScheduler.Decimal.Double
