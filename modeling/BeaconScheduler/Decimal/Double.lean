/-!
# Double precision numbers

A finite number is `mantissa * 2 ^ exponent` with 53 bits of mantissa and exponents from
-1074 on. `ofDecimal` takes a decimal to the nearest such number, a tie to the even
mantissa; a decimal that rounds past the largest of them is infinite.
-/

set_option autoImplicit false

namespace BeaconScheduler.Decimal

inductive Double where
  | finite (negative : Bool) (mantissa : Nat) (exponent : Int)
  | infinite (negative : Bool)
  | notANumber
deriving DecidableEq, Repr

namespace Double

/-- The nearest natural number to `num / den`, a tie to the even one. -/
def roundDiv (num den : Nat) : Nat :=
  let low := num / den
  let rest := num % den
  if 2 * rest < den then low
  else if den < 2 * rest then low + 1
  else low + low % 2

def minExponent : Int := -1074

def maxExponent : Int := 971

/-- The nearest number to `num / den` on the grid of multiples of `2 ^ exponent`, as a
multiple. -/
def onGrid (num den : Nat) (exponent : Int) : Nat :=
  if 0 ≤ exponent then
    roundDiv num (den * Nat.pow 2 exponent.toNat)
  else
    roundDiv (num * Nat.pow 2 (-exponent).toNat) den

/-- The grid on which `num / den` has a mantissa of 53 bits or a little more, but not below the
finest grid. -/
def gridOf (num den : Nat) : Int :=
  max minExponent ((num.log2 : Int) - (den.log2 : Int) - 53)

/-- The double nearest to the quotient of two positive numbers. One grid is as fine as needed or
one step too fine; a mantissa that comes out too long is taken from the next one. -/
def ofQuotient (negative : Bool) (num den : Nat) : Double :=
  let fine := gridOf num den
  let exponent := if onGrid num den fine < Nat.pow 2 53 then fine else fine + 1
  let mantissa := onGrid num den exponent
  let (mantissa, exponent) :=
    if mantissa < Nat.pow 2 53 then (mantissa, exponent) else (mantissa / 2, exponent + 1)
  if maxExponent < exponent then .infinite negative else .finite negative mantissa exponent

/-- The double nearest to `digits * 10 ^ scale`. Decimals far outside the range of doubles are
settled by their order of magnitude. -/
def ofDecimal (negative : Bool) (digits : Nat) (scale : Int) : Double :=
  let magnitude := scale + (Nat.toDigits 10 digits).length
  if digits = 0 ∨ magnitude < -400 then
    .finite negative 0 minExponent
  else if 400 < magnitude then
    .infinite negative
  else if 0 ≤ scale then
    ofQuotient negative (digits * Nat.pow 10 scale.toNat) 1
  else
    ofQuotient negative digits (Nat.pow 10 (-scale).toNat)

end Double
end BeaconScheduler.Decimal
