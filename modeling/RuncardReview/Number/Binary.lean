import RuncardReview.Number.Integer

/-!
# Double-precision numbers as exact fractions

A finite double is `± mantissa · 2 ^ exponent`.  Every question about its exact
value (is it whole, which integer is it, which decimals round to it) is asked
of these two numbers, in exact arithmetic.
-/

namespace RuncardReview
namespace Number

/-- A double, taken apart.  A finite value is `± mantissa · 2 ^ exponent`. -/
inductive Parts
  | nan
  | infinite (neg : Bool)
  | finite (neg : Bool) (mantissa : Nat) (exponent : Int)
  deriving DecidableEq

/-- Takes a double apart: sign bit, eleven exponent bits, fifty-two fraction bits. -/
def parts (x : Float) : Parts :=
  let bits := x.toBits.toNat
  let neg := bits / twoTo 63 == 1
  let field : Nat := bits / twoTo 52 % twoTo 11
  let fraction : Nat := bits % twoTo 52
  if field = 2047 then
    if fraction = 0 then .infinite neg else .nan
  else if field = 0 then .finite neg fraction (-1074)
  else .finite neg (twoTo 52 + fraction) ((field : Int) - 1075)

/-- `mantissa · 2 ^ exponent` as a fraction. -/
def fractionOf (mantissa : Nat) (exponent : Int) : Nat × Nat :=
  if 0 ≤ exponent then (mantissa * twoTo exponent.toNat, 1)
  else (mantissa, twoTo (-exponent).toNat)

/-- The integer that a double is equal to, if it is a whole number. -/
def whole? (x : Float) : Option Int :=
  match parts x with
  | .finite neg m e =>
      let (num, den) := fractionOf m e
      if num % den = 0 then
        some (if neg then -((num / den : Nat) : Int) else ((num / den : Nat) : Int))
      else none
  | _ => none

def ofInteger (n : Int) : Float :=
  Float.ofInt n

def isFinite (x : Float) : Bool :=
  match parts x with
  | .finite .. => true
  | _ => false

end Number
end RuncardReview
