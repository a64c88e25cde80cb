import RuncardReview.Number.Integer
import RuncardReview.Text.Blank

/-!
# Timestamps

A date of the Gregorian calendar, extended to all years, and a time of day to
the nanosecond, without a zone.  A leap second is the fifty-ninth second with a
billion nanoseconds or more.

Reading is lenient about blanks before a field and about fields of one digit;
writing is strict: `YYYY-MM-DDThh:mm:ss`, with three, six or nine decimals where
the nanoseconds need them.
-/

namespace RuncardReview

open Text Number

/-- A date and a time of day. -/
structure Timestamp where
  year : Int
  month : Nat
  day : Nat
  hour : Nat
  minute : Nat
  second : Nat
  nano : Nat
  deriving DecidableEq

namespace Timestamp

def isLeap (year : Int) : Bool :=
  year % 4 = 0 && (year % 100 ≠ 0 || year % 400 = 0)

def daysIn (year : Int) : Nat → Nat
  | 2 => if isLeap year then 29 else 28
  | 4 => 30
  | 6 => 30
  | 9 => 30
  | 11 => 30
  | _ => 31

def earliest : Timestamp :=
  ⟨-262143, 1, 1, 0, 0, 0, 0⟩

def latest : Timestamp :=
  ⟨262142, 12, 31, 23, 59, 59, 999999999⟩

def fields (t : Timestamp) : List Int :=
  [t.year, t.month, t.day, t.hour, t.minute, t.second, t.nano]

/-- The order of lists of one length, decided at the first difference. -/
def fieldsLt : List Int → List Int → Bool
  | a :: s, b :: t => decide (a < b) || (a == b && fieldsLt s t)
  | _, _ => false

def before (s t : Timestamp) : Bool :=
  fieldsLt s.fields t.fields

def skipBlanks (s : List Char) : List Char :=
  s.dropWhile isBlank

/-- Up to `width` digits, at least one, and what follows them. -/
def takeNumber (width : Nat) (s : List Char) : Option (Nat × List Char) :=
  let ds := (s.take width).takeWhile isDigit
  if ds.isEmpty then none else some (digits ds, s.drop ds.length)

def expect (c : Char) : List Char → Option (List Char)
  | [] => none
  | x :: s => if x = c then some s else none

/-- The year: four digits at most, or any number of them after a sign. -/
def takeYear (s : List Char) : Option (Int × List Char) :=
  match s with
  | '-' :: r => (takeNumber r.length r).map fun p => (-(p.1 : Int), p.2)
  | '+' :: r => (takeNumber r.length r).map fun p => ((p.1 : Int), p.2)
  | _ => (takeNumber 4 s).map fun p => ((p.1 : Int), p.2)

/-- A field of one or two digits between two bounds, blanks in front allowed. -/
def takeField (low high : Nat) (s : List Char) : Option (Nat × List Char) :=
  match takeNumber 2 (skipBlanks s) with
  | some (n, r) => if low ≤ n ∧ n ≤ high then some (n, r) else none
  | none => none

/-- The nanoseconds of a decimal part; digits after the ninth are dropped. -/
def takeNanos (s : List Char) : Option (Nat × List Char) :=
  match s with
  | '.' :: r =>
      let ds := (r.take 9).takeWhile isDigit
      if ds.isEmpty then none
      else some (digits ds * tenTo (9 - ds.length), (r.drop ds.length).dropWhile isDigit)
  | _ => some (0, s)

/-- The year, month and day in front, and what follows them. -/
def takeDate (s : List Char) : Option ((Int × Nat × Nat) × List Char) := do
  let (year, s) ← takeYear (skipBlanks s)
  let s ← expect '-' (skipBlanks s)
  let (month, s) ← takeField 1 12 s
  let s ← expect '-' (skipBlanks s)
  let (day, s) ← takeField 1 31 s
  if earliest.year ≤ year ∧ year ≤ latest.year ∧ day ≤ daysIn year month then
    some ((year, month, day), s)
  else none

def read (s : List Char) : Option Timestamp := do
  let ((year, month, day), s) ← takeDate s
  let s ← expect 'T' (skipBlanks s)
  let (hour, s) ← takeField 0 23 s
  let s ← expect ':' (skipBlanks s)
  let (minute, s) ← takeField 0 59 s
  let s ← expect ':' (skipBlanks s)
  let (second, s) ← takeField 0 60 s
  let (nano, s) ← takeNanos s
  if (skipBlanks s).isEmpty then
    if second = 60 then some ⟨year, month, day, hour, minute, 59, 1000000000 + nano⟩
    else some ⟨year, month, day, hour, minute, second, nano⟩
  else none

/-- The year: four digits, or a sign and at least four. -/
def yearText (year : Int) : String :=
  if 0 ≤ year ∧ year ≤ 9999 then paddedText 4 year.natAbs
  else (if year < 0 then "-" else "+") ++ paddedText 4 year.natAbs

/-- The decimals of the second: none, three, six or nine. -/
def nanosText (nano : Nat) : String :=
  if nano = 0 then ""
  else if nano % 1000000 = 0 then "." ++ paddedText 3 (nano / 1000000)
  else if nano % 1000 = 0 then "." ++ paddedText 6 (nano / 1000)
  else "." ++ paddedText 9 nano

def text (t : Timestamp) : String :=
  let (second, nano) :=
    if t.nano < 1000000000 then (t.second, t.nano) else (t.second + 1, t.nano - 1000000000)
  yearText t.year ++ "-" ++ paddedText 2 t.month ++ "-" ++ paddedText 2 t.day ++ "T"
    ++ paddedText 2 t.hour ++ ":" ++ paddedText 2 t.minute ++ ":" ++ paddedText 2 second
    ++ nanosText nano

end Timestamp
end RuncardReview
