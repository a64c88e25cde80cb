import RuncardReview.Json.Basic
import RuncardReview.Scan

/-!
# Reading JSON text

The text must be one value, with blanks around its parts.  Numbers without
fraction and exponent are integers as long as they fit into 64 bits, with or
without a sign; all others are doubles, and so is `-0`.

A double is computed in floating point from the first digits of the text, as
many as fit into 64 bits without a sign, and one power of ten; a value nested
more than 127 deep has no reading.
-/

namespace RuncardReview
namespace Json

open Number Scanner

def isGap (c : Char) : Bool :=
  c = ' ' || c = '\n' || c = '\t' || c = '\r'

def gap : Scanner Unit := do
  let _ ← span isGap
  return ()

/-! ## Texts -/

/-- A character of a quoted text, or a 16-bit unit given by its number. -/
inductive TextPiece
  | char (c : Char)
  | unit (n : Nat)

def hexValue? (c : Char) : Option Nat :=
  if '0' ≤ c ∧ c ≤ '9' then some (c.toNat - '0'.toNat)
  else if 'a' ≤ c ∧ c ≤ 'f' then some (c.toNat - 'a'.toNat + 10)
  else if 'A' ≤ c ∧ c ≤ 'F' then some (c.toNat - 'A'.toNat + 10)
  else none

def hex : Scanner Nat
  | [] => .absent
  | c :: s =>
      match hexValue? c with
      | some n => .found n s
      | none => .absent

/-- The character that a letter after a backslash stands for. -/
def escape? (c : Char) : Option Char :=
  if c = '"' then some '"'
  else if c = '\\' then some '\\'
  else if c = '/' then some '/'
  else if c = 'b' then some '\x08'
  else if c = 'f' then some '\x0c'
  else if c = 'n' then some '\n'
  else if c = 'r' then some '\r'
  else if c = 't' then some '\t'
  else none

/-- The number of a unit, in four hexadecimal digits. -/
def unitNumber : Scanner TextPiece := do
  let a ← hex
  let b ← hex
  let c ← hex
  let d ← hex
  return .unit (((a * 16 + b) * 16 + c) * 16 + d)

def textPiece : Scanner TextPiece
  | [] => .absent
  | ['\\'] => .absent
  | '\\' :: c :: s =>
      if c = 'u' then unitNumber s
      else
        match escape? c with
        | some x => .found (.char x) s
        | none => .absent
  | c :: s => if c = '"' ∨ c.toNat < 0x20 then .absent else .found (.char c) s

/-- The characters of the pieces.  The units of a surrogate pair stand for one
character, and half of a pair for none. -/
def characters? : List TextPiece → Option (List Char)
  | [] => some []
  | .char c :: ps => (characters? ps).map (c :: ·)
  | [.unit n] => if 0xD800 ≤ n ∧ n < 0xE000 then none else some [Char.ofNat n]
  | .unit n :: .char c :: ps =>
      if 0xD800 ≤ n ∧ n < 0xE000 then none
      else (characters? ps).map fun cs => Char.ofNat n :: c :: cs
  | .unit n :: .unit m :: ps =>
      if 0xDC00 ≤ n ∧ n < 0xE000 then none
      else if 0xD800 ≤ n ∧ n < 0xDC00 then
        if 0xDC00 ≤ m ∧ m < 0xE000 then
          (characters? ps).map
            (Char.ofNat (0x10000 + (n - 0xD800) * 0x400 + (m - 0xDC00)) :: ·)
        else none
      else (characters? (.unit m :: ps)).map (Char.ofNat n :: ·)

/-- A quoted text, or nothing if it has no reading. -/
def quotedText : Scanner (Option String) := do
  char '"'
  let pieces ← many textPiece
  char '"'
  return (characters? pieces).map String.ofList

/-! ## Numbers -/

def maxWord : Nat := 18446744073709551615

/-- The digits of a number that were taken, and the power of ten that makes up
for the others. -/
structure Significand where
  value : Nat
  exponent : Int

/-- Takes the digits before the point as long as they fit. -/
def takeWhole (n : Nat) : List Char → Significand
  | [] => ⟨n, 0⟩
  | d :: ds =>
      if 10 * n + digitValue d ≤ maxWord then takeWhole (10 * n + digitValue d) ds
      else ⟨n, (ds.length : Int) + 1⟩

/-- Takes the digits after the point as long as they fit. -/
def takeDecimals (s : Significand) : List Char → Significand
  | [] => s
  | d :: ds =>
      if 10 * s.value + digitValue d ≤ maxWord then
        takeDecimals ⟨10 * s.value + digitValue d, s.exponent - 1⟩ ds
      else s

def powerOfTen (n : Nat) : Float :=
  Float.ofScientific 1 false n

/-- Divides by a power of ten, in steps that are powers of ten themselves. -/
def divideByPower (x : Float) (n : Nat) : Float :=
  if n ≤ 308 then x / powerOfTen n
  else if x == 0 then x
  else divideByPower (x / powerOfTen 308) (n - 308)
termination_by n

/-- The double of a significand, if it is not too large. -/
def scaled? (s : Significand) : Option Float :=
  let x := Float.ofNat s.value
  if s.exponent < 0 then some (divideByPower x s.exponent.natAbs)
  else if x == 0 then some x
  else if s.exponent ≤ 308 then
    let y := x * powerOfTen s.exponent.toNat
    if isFinite y then some y else none
  else none

/-- A double with its sign, or what has no reading. -/
def floatOf (neg : Bool) (s : Significand) : Json :=
  match scaled? s with
  | some x => float (if neg then -x else x)
  | none => unreadable

def integerOf (neg : Bool) (ds : List Char) : Json :=
  let n := digits ds
  if maxWord < n then floatOf neg (takeWhole 0 ds)
  else if !neg then int n
  else if n = 0 ∨ -(n : Int) < smallest then float (-Float.ofNat n)
  else int (-(n : Int))

def fraction : Scanner (List Char) := do
  char '.'
  span1 isDigit

def exponentMark : Scanner Unit :=
  orElse (char 'e') (char 'E')

/-- The sign of an exponent, which may be missing: whether it is a minus. -/
def exponentSign : Scanner Bool :=
  orElse ((fun _ => true) <$> char '-')
    (orElse ((fun _ => false) <$> char '+') (Scanner.pure false))

def exponent : Scanner Int := do
  exponentMark
  let neg ← exponentSign
  let ds ← span1 isDigit
  return signed neg (digits ds)

/-- The digits before the point: a single zero, or digits of which the first is
not zero. -/
def wholeDigits : Scanner (List Char)
  | '0' :: s => .found ['0'] s
  | s => span1 isDigit s

def number : Scanner Json := do
  let sign ← opt (char '-')
  let whole ← wholeDigits
  let decimals ← opt fraction
  let power ← opt exponent
  match decimals, power with
  | none, none => return integerOf sign.isSome whole
  | _, _ =>
      let s := takeDecimals (takeWhole 0 whole) (decimals.getD [])
      return floatOf sign.isSome ⟨s.value, s.exponent + power.getD 0⟩

/-! ## Values -/

def comma : Scanner Unit := do
  gap
  char ','
  gap

/-- A field of an object.  The name may have no reading. -/
def field (value : Scanner Json) : Scanner (Option (String × Json)) := do
  let name ← quotedText
  gap
  char ':'
  gap
  let x ← value
  return name.map fun n => (n, x)

/-- The object of some fields, if all their names have a reading. -/
def objectOf : List (Option (String × Json)) → Json
  | fs => if fs.all Option.isSome then object (fs.filterMap id) else unreadable

def arrayText (value : Scanner Json) : Scanner Json := do
  char '['
  gap
  let xs ← separated value comma
  gap
  char ']'
  return array xs

def objectText (value : Scanner Json) : Scanner Json := do
  char '\x7b'
  gap
  let fs ← separated (field value) comma
  gap
  char '\x7d'
  return objectOf fs

def textValue : Scanner Json := do
  let s ← quotedText
  return match s with
    | some s => text s
    | none => unreadable

/-- Arrays and objects nested deeper than this have no reading. -/
def deepest : Nat := 127

/-- The value, unless it is nested too deep. -/
def within (level : Nat) (j : Json) : Json :=
  if level < deepest then j else unreadable

/-- A value inside `level` arrays and objects, with fewer than `room` levels
below it. -/
def valueWithin : Nat → Nat → Scanner Json
  | 0, _ => fun _ => .stuck
  | room + 1, level =>
      orElse ((fun _ => null) <$> word "null".toList)
        (orElse ((fun _ => bool true) <$> word "true".toList)
          (orElse ((fun _ => bool false) <$> word "false".toList)
            (orElse number
              (orElse textValue
                (orElse (within level <$> arrayText (valueWithin room (level + 1)))
                  (within level <$> objectText (valueWithin room (level + 1))))))))

def document : Scanner Json := fun s =>
  (do
    gap
    let j ← valueWithin (s.length + 1) 0
    gap
    return j : Scanner Json) s

def read (s : String) : Option Json :=
  whole? document s.toList

end Json
end RuncardReview
