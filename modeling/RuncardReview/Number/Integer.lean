/-!
# Decimal integers

Whole numbers are written with a minus sign where needed and no leading zero.
A 64-bit integer is read from an optional sign and one or more ASCII digits; a
value outside the range is refused, not wrapped.
-/

namespace RuncardReview
namespace Number

def isDigit (c : Char) : Bool :=
  decide ('0' ≤ c) && decide (c ≤ '9')

def digitValue (c : Char) : Nat :=
  c.toNat - '0'.toNat

/-- The number that a row of digits stands for, read on from `start`. -/
def digitsFrom (start : Nat) (ds : List Char) : Nat :=
  ds.foldl (fun n d => 10 * n + digitValue d) start

/-- The number that a row of digits stands for. -/
def digits (ds : List Char) : Nat :=
  digitsFrom 0 ds

/-- The digits at the start of a text, and what follows them. -/
def takeDigits (s : List Char) : List Char × List Char :=
  (s.takeWhile isDigit, s.dropWhile isDigit)

/-- A leading sign: whether it is a minus, and what follows it. -/
def takeSign : List Char → Bool × List Char
  | '-' :: s => (true, s)
  | '+' :: s => (false, s)
  | s => (false, s)

def signed (neg : Bool) (n : Nat) : Int :=
  if neg then -(n : Int) else n

def twoTo (n : Nat) : Nat :=
  Nat.pow 2 n

def tenTo (n : Nat) : Nat :=
  Nat.pow 10 n

def smallest : Int := -9223372036854775808

def largest : Int := 9223372036854775807

/-- The 64-bit integer of that value, if it is in range. -/
def int64? (n : Int) : Option Int64 :=
  if smallest ≤ n ∧ n ≤ largest then some (Int64.ofInt n) else none

def clampInt64 (n : Int) : Int64 :=
  if n < smallest then Int64.ofInt smallest
  else if largest < n then Int64.ofInt largest
  else Int64.ofInt n

/-- Reads a 64-bit integer: an optional sign, then digits and nothing else. -/
def readInt64 (s : List Char) : Option Int64 :=
  let (neg, body) := takeSign s
  if body.isEmpty || !body.all isDigit then none
  else int64? (signed neg (digits body))

/-- The decimal digits of a natural number, without leading zeros. -/
def natText (n : Nat) : List Char :=
  Nat.toDigits 10 n

def intText (n : Int) : String :=
  if n < 0 then String.ofList ('-' :: natText n.natAbs)
  else String.ofList (natText n.natAbs)

def countText (n : Nat) : String :=
  String.ofList (natText n)

/-- A natural number with at least `width` digits, zeros in front. -/
def paddedText (width n : Nat) : String :=
  let ds := natText n
  String.ofList (List.replicate (width - ds.length) '0' ++ ds)

end Number
end RuncardReview
