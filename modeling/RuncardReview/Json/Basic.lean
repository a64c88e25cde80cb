import RuncardReview.Number.Layout
import RuncardReview.Text.Pieces

/-!
# JSON values

The values of the exchange format, and their compact text.  The fields of an
object stay in the order of the text, repeats included.

One form stands for a piece of text that is well formed and yet has no value: a
text with half of a surrogate pair, a number beyond the doubles, a value nested
too deep.  Where it is skipped it does no harm, and nothing can be made of it.
-/

namespace RuncardReview

open Number

/-- A value of the exchange format. -/
inductive Json
  | null
  | bool (b : Bool)
  | int (n : Int)
  | float (x : Float)
  | text (s : String)
  | array (xs : List Json)
  | object (fields : List (String × Json))
  | unreadable

namespace Json

def hexDigit (n : Nat) : Char :=
  if n < 10 then Char.ofNat ('0'.toNat + n) else Char.ofNat ('a'.toNat + (n - 10))

/-- The form of a character within a quoted text. -/
def escaped (c : Char) : List Char :=
  if c = '"' then ['\\', '"']
  else if c = '\\' then ['\\', '\\']
  else if c = '\x08' then ['\\', 'b']
  else if c = '\t' then ['\\', 't']
  else if c = '\n' then ['\\', 'n']
  else if c = '\x0c' then ['\\', 'f']
  else if c = '\r' then ['\\', 'r']
  else if c.toNat < 0x20 then
    ['\\', 'u', '0', '0', hexDigit (c.toNat / 16), hexDigit (c.toNat % 16)]
  else [c]

def quoted (s : String) : String :=
  String.ofList ('"' :: s.toList.flatMap escaped ++ ['"'])

/-- Doubles keep a `.0`, and go over to an exponent below `1e-5` and from `1e16`. -/
def floatLayout : Layout :=
  { positional := some (-5, 15), keepPoint := true, plusSign := true, tie := .even }

/-- The text of a double.  One that is not finite has none of its own. -/
def floatText (x : Float) : String :=
  if isFinite x then floatLayout.text x else "null"

mutual

def write : Json → String
  | null => "null"
  | bool true => "true"
  | bool false => "false"
  | int n => intText n
  | float x => floatText x
  | text s => quoted s
  | array xs => "[" ++ ",".intercalate (writeAll xs) ++ "]"
  | object fields => "\x7b" ++ ",".intercalate (writeFields fields) ++ "\x7d"
  | unreadable => "null"

def writeAll : List Json → List String
  | [] => []
  | x :: xs => write x :: writeAll xs

def writeFields : List (String × Json) → List String
  | [] => []
  | (name, x) :: fields => (quoted name ++ ":" ++ write x) :: writeFields fields

end

def named (name : String) (fields : List (String × Json)) : List Json :=
  (fields.filter fun f => f.1 = name).map Prod.snd

/-- The fields of a record, each if it is there.  A record is an object that has
no field of these names twice, or an array that gives the fields in order. -/
def fields? (names : List String) : Json → Option (List (Option Json))
  | object fields =>
      if names.all fun n => (named n fields).length ≤ 1 then
        some (names.map fun n => (named n fields).head?)
      else none
  | array xs =>
      if xs.length ≤ names.length then
        some (xs.map some ++ List.replicate (names.length - xs.length) none)
      else none
  | _ => none

def required {α : Type} (read : Json → Option α) (field : Option Json) : Option α :=
  field.bind read

def defaulted {α : Type} (default : α) (read : Json → Option α) : Option Json → Option α
  | none => some default
  | some j => read j

def nullable {α : Type} (read : Json → Option α) : Json → Option (Option α)
  | null => some none
  | j => (read j).map some

def text? : Json → Option String
  | text s => some s
  | _ => none

def bool? : Json → Option Bool
  | bool b => some b
  | _ => none

def natBelow? (bound : Nat) : Json → Option Nat
  | int n => if 0 ≤ n ∧ n < bound then some n.toNat else none
  | _ => none

def word? (j : Json) : Option UInt32 :=
  (natBelow? (twoTo 32) j).map UInt32.ofNat

def each? {α : Type} (read : Json → Option α) : List Json → Option (List α)
  | [] => some []
  | j :: js =>
      match read j, each? read js with
      | some a, some as => some (a :: as)
      | _, _ => none

def list? {α : Type} (read : Json → Option α) : Json → Option (List α)
  | array xs => each? read xs
  | _ => none

/-- An optional value, `null` where there is none. -/
def ofOption {α : Type} (write : α → Json) : Option α → Json
  | none => null
  | some a => write a

end Json
end RuncardReview
