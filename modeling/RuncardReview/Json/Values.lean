import RuncardReview.Json.Basic
import RuncardReview.Result

/-!
# Values, entries and lamps in JSON

A value is written without a mark of its kind: an integer without, a double with
a fraction or an exponent.  A double that is not finite is written as `null`,
which is not read back.  Lamps are written by their numbers.
-/

namespace RuncardReview

open Number

namespace Value

mutual

def toJson : Value → Json
  | .int n => .int n.toInt
  | .float x => if isFinite x then .float x else .null
  | .bool b => .bool b
  | .text s => .text s
  | .list xs => .array (toJsonAll xs)

def toJsonAll : List Value → List Json
  | [] => []
  | x :: xs => toJson x :: toJsonAll xs

end

/-- The value of a whole number: an integer if it fits into 64 bits. -/
def ofWhole (n : Int) : Value :=
  match int64? n with
  | some m => .int m
  | none => .float (ofInteger n)

mutual

def ofJson? : Json → Option Value
  | .int n => some (ofWhole n)
  | .float x => some (.float x)
  | .bool b => some (.bool b)
  | .text s => some (.text s)
  | .array xs => (ofJsonAll? xs).map .list
  | .null => none
  | .object _ => none
  | .unreadable => none

def ofJsonAll? : List Json → Option (List Value)
  | [] => some []
  | x :: xs =>
      match ofJson? x, ofJsonAll? xs with
      | some v, some vs => some (v :: vs)
      | _, _ => none

end

end Value

namespace Entries

def toJson (s : Entries Value) : Json :=
  .object (s.toList.map fun e => (e.1, e.2.toJson))

def fieldsOfJson? : List (String × Json) → Option (List (String × Value))
  | [] => some []
  | (name, j) :: fields =>
      match Value.ofJson? j, fieldsOfJson? fields with
      | some v, some vs => some ((name, v) :: vs)
      | _, _ => none

/-- Reads named values; of two fields of one name the later one stays. -/
def ofJson? : Json → Option (Entries Value)
  | .object fields => (fieldsOfJson? fields).map Entries.ofList
  | _ => none

end Entries

namespace Lamp

def toJson (l : Lamp) : Json :=
  .int l.code

def ofJson? (j : Json) : Option Lamp :=
  (Json.natBelow? 256 j).bind ofCode?

end Lamp
end RuncardReview
