import RuncardReview.Number.Layout
import RuncardReview.Number.Reading
import RuncardReview.Text.Pieces

/-!
# Values

The values of rule settings and of the evidence behind a result: 64-bit
integers, doubles, truth values, texts and lists of values.

A reader of settings asks for a *view* of a value: a value of another form is
accepted where it plainly stands for one of the wanted form (a whole double or a
numeric text for an integer, `Y` for true), and otherwise there is no view.
-/

namespace RuncardReview

open Text Number

/-- A value of a setting or of a detail. -/
inductive Value
  | int (n : Int64)
  | float (x : Float)
  | bool (b : Bool)
  | text (s : String)
  | list (xs : List Value)

namespace Value

mutual

/-- Values are told apart by their form and what they hold.  Here a NaN is the same as itself and
the two zeros are not the same, other than for `same`. -/
def decEq (v : Value) : (w : Value) → Decidable (v = w) :=
  match v with
  | .int m => fun
      | .int n => decidable_of_iff (m = n) (by rw [int.injEq])
      | .float _ | .bool _ | .text _ | .list _ => isFalse nofun
  | .float x => fun
      | .float y => decidable_of_iff (x = y) (by rw [float.injEq])
      | .int _ | .bool _ | .text _ | .list _ => isFalse nofun
  | .bool a => fun
      | .bool b => decidable_of_iff (a = b) (by rw [bool.injEq])
      | .int _ | .float _ | .text _ | .list _ => isFalse nofun
  | .text s => fun
      | .text t => decidable_of_iff (s = t) (by rw [text.injEq])
      | .int _ | .float _ | .bool _ | .list _ => isFalse nofun
  | .list xs => fun
      | .list ys =>
          have := decEqAll xs ys
          decidable_of_iff (xs = ys) (by rw [list.injEq])
      | .int _ | .float _ | .bool _ | .text _ => isFalse nofun

def decEqAll (xs : List Value) : (ys : List Value) → Decidable (xs = ys) :=
  match xs with
  | [] => fun
      | [] => isTrue rfl
      | _ :: _ => isFalse nofun
  | x :: xs => fun
      | [] => isFalse nofun
      | y :: ys =>
          have := decEq x y
          have := decEqAll xs ys
          decidable_of_iff (x = y ∧ xs = ys) (by rw [List.cons.injEq])

end

instance : DecidableEq Value :=
  decEq

def count (n : Nat) : Value :=
  .int (clampInt64 n)

def texts (ss : List String) : Value :=
  .list (ss.map .text)

def text? : Value → Option String
  | .text s => some s
  | _ => none

def list? : Value → Option (List Value)
  | .list xs => some xs
  | _ => none

/-- The integer view.  Whole doubles (the nearest integer in range) and numeric
texts are accepted. -/
def int? : Value → Option Int64
  | .int n => some n
  | .float x => (whole? x).map clampInt64
  | .text s => readInt64 (trimChars s.toList)
  | _ => none

/-- The double view.  Integers and numeric texts are accepted. -/
def float? : Value → Option Float
  | .int n => some (ofInteger n.toInt)
  | .float x => some x
  | .text s => readFloat (trimChars s.toList)
  | _ => none

/-- The truth view.  The words `true`, `y`, `false` and `n` are accepted in any
ASCII case. -/
def bool? : Value → Option Bool
  | .bool b => some b
  | .text s =>
      let word := lowerAscii (trim s)
      if word = "true" ∨ word = "y" then some true
      else if word = "false" ∨ word = "n" then some false
      else none
  | _ => none

/-- Doubles are shown by their shortest digits, never with an exponent. -/
def floatLayout : Layout :=
  { positional := none, keepPoint := false, plusSign := false, tie := .up }

mutual

def display : Value → String
  | .int n => intText n.toInt
  | .float x => floatLayout.text x
  | .bool true => "true"
  | .bool false => "false"
  | .text s => "\"" ++ s ++ "\""
  | .list xs => "[" ++ ", ".intercalate (displayAll xs) ++ "]"

def displayAll : List Value → List String
  | [] => []
  | x :: xs => display x :: displayAll xs

end

mutual

/-- Equality of values.  Doubles are compared as numbers: NaN differs from
itself and the two zeros are equal.  An integer never equals a double. -/
def same : Value → Value → Bool
  | .int m, .int n => m == n
  | .float x, .float y => x == y
  | .bool a, .bool b => a == b
  | .text s, .text t => s == t
  | .list xs, .list ys => sameAll xs ys
  | _, _ => false

def sameAll : List Value → List Value → Bool
  | [], [] => true
  | x :: xs, y :: ys => same x y && sameAll xs ys
  | _, _ => false

end

end Value
end RuncardReview
