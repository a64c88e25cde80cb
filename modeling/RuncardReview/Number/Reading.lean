import RuncardReview.Number.Integer

/-!
# Reading a double

A double is read from an optional sign and either digits with an optional point
(at least one digit on one of its sides) and an optional exponent, or one of
the words `inf`, `infinity` and `nan` in any case.  The value is the double
nearest to the decimal; one that is too large reads as an infinity and one that
is too small as zero.
-/

namespace RuncardReview
namespace Number

/-- The double nearest to `coefficient · 10 ^ exponent`.  Decimals beyond the
range of doubles are decided by their number of digits alone. -/
def ofDecimal (coefficient : Nat) (exponent : Int) : Float :=
  let magnitude := ((natText coefficient).length : Int) + exponent
  if coefficient = 0 ∨ magnitude < -400 then 0.0
  else if 400 < magnitude then 1.0 / 0.0
  else Float.ofScientific coefficient (decide (exponent < 0)) exponent.natAbs

def withSign (neg : Bool) (x : Float) : Float :=
  if neg then -x else x

/-- The exponent part: nothing, or `e` with an optional sign and digits, up to
the end of the text. -/
def readExponent : List Char → Option Int
  | [] => some 0
  | c :: s =>
      if c = 'e' ∨ c = 'E' then
        let (neg, ds) := takeSign s
        if ds.isEmpty || !ds.all isDigit then none
        else some (signed neg (digits ds))
      else none

/-- The digits after a point, if a point comes next, and what follows them. -/
def takeFraction : List Char → List Char × List Char
  | '.' :: s => takeDigits s
  | s => ([], s)

def readDecimal (s : List Char) : Option Float :=
  let (front, afterFront) := takeDigits s
  let (back, rest) := takeFraction afterFront
  if front.isEmpty && back.isEmpty then none
  else (readExponent rest).map fun e => ofDecimal (digits (front ++ back)) (e - back.length)

def readFloat (s : List Char) : Option Float :=
  let (neg, body) := takeSign s
  let word := body.map Char.toLower
  if word = "inf".toList ∨ word = "infinity".toList then some (withSign neg (1.0 / 0.0))
  else if word = "nan".toList then some (0.0 / 0.0)
  else (readDecimal body).map (withSign neg)

end Number
end RuncardReview
