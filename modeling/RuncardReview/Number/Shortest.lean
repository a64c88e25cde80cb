import RuncardReview.Number.Binary

/-!
# The shortest decimal that reads back

The decimals that round to a double form an interval around it, whose ends
belong to it exactly when the mantissa is even.  For one digit, two digits and
so on up to seventeen, the two neighbours of the value on that decimal grid are
tested; the first grid with a neighbour in the interval wins, and of two
neighbours the nearer.  All of it is exact arithmetic on natural numbers.
-/

namespace RuncardReview
namespace Number

/-- Which of two equally near decimals is taken. -/
inductive Tie
  | up
  | even
  deriving DecidableEq

/-- A decimal `coefficient · 10 ^ exponent`. -/
structure Decimal where
  coefficient : Nat
  exponent : Int
  deriving DecidableEq

/-- The interval of a positive double and its grid, over one common unit: the
value, the distance to either end, and the size of one grid step. -/
structure Grid where
  value : Nat
  below : Nat
  above : Nat
  step : Nat
  closed : Bool

/-- The grid of step `10 ^ place` around `m · 2 ^ e`.  Below a power of two the
next double is only half as far away. -/
def gridAt (m : Nat) (e place : Int) : Grid :=
  let twos := twoTo (-(e - 2)).toNat
  let tens := tenTo (-place).toNat
  let unit := twoTo (e - 2).toNat * tens
  { value := 4 * m * unit
    below := if m = twoTo 52 ∧ e ≠ -1074 then unit else 2 * unit
    above := 2 * unit
    step := tenTo place.toNat * twos
    closed := m % 2 = 0 }

/-- Whether the point `d` steps up lies in the interval. -/
def Grid.holds (g : Grid) (d : Nat) : Bool :=
  let point := d * g.step
  if g.closed then
    decide (g.value ≤ point + g.below) && decide (point ≤ g.value + g.above)
  else
    decide (g.value < point + g.below) && decide (point < g.value + g.above)

/-- The better of the value's two neighbours on the grid, if one is in the interval. -/
def Grid.nearest? (g : Grid) (tie : Tie) : Option Nat :=
  let d := g.value / g.step
  match g.holds d, g.holds (d + 1) with
  | false, false => none
  | true, false => some d
  | false, true => some (d + 1)
  | true, true =>
      if 2 * g.value < (2 * d + 1) * g.step then some d
      else if (2 * d + 1) * g.step < 2 * g.value then some (d + 1)
      else match tie with
        | .up => some (d + 1)
        | .even => some (if d % 2 = 0 then d else d + 1)

def powerLe (k : Int) (m : Nat) (e : Int) : Bool :=
  decide (tenTo k.toNat * twoTo (-e).toNat ≤ m * twoTo e.toNat * tenTo (-k).toNat)

/-- The number of the largest power of ten that is not above `m · 2 ^ e`,
looked for downwards from `k`. -/
def leadingPlace (m : Nat) (e : Int) (k : Int) : Nat → Int
  | 0 => k
  | n + 1 => if powerLe k m e then k else leadingPlace m e (k - 1) n

/-- The first grid, from the place `top` downwards, that holds a neighbour. -/
def searchFrom (m : Nat) (e : Int) (tie : Tie) (place : Int) : Nat → Decimal
  | 0 => ⟨(gridAt m e place).value / (gridAt m e place).step, place⟩
  | n + 1 =>
      match (gridAt m e place).nearest? tie with
      | some d => ⟨d, place⟩
      | none => searchFrom m e tie (place - 1) n

/-- Drops the zeros at the end of the coefficient. -/
def Decimal.reduce (d : Decimal) : Nat → Decimal
  | 0 => d
  | n + 1 =>
      if d.coefficient ≠ 0 ∧ d.coefficient % 10 = 0 then
        Decimal.reduce ⟨d.coefficient / 10, d.exponent + 1⟩ n
      else d

/-- An estimate of the decimal logarithm of `m · 2 ^ e`, never below it. -/
def placeAbove (m : Nat) (e : Int) : Int :=
  ((m.log2 : Int) + 1 + e) * 30103 / 100000 + 2

/-- The shortest decimal that rounds to `m · 2 ^ e`, the nearest of those. -/
def shortest (m : Nat) (e : Int) (tie : Tie) : Decimal :=
  if m = 0 then ⟨0, 0⟩
  else
    let top := leadingPlace m e (placeAbove m e) 6
    (searchFrom m e tie top 17).reduce 20

end Number
end RuncardReview
