import RuncardReview.Catalog.Grammar

/-!
# Errors in the text of a catalog

An error shows the line it was found on, a mark under the place, and what was
expected there.  A text of one line is shown as it is, with the mark counted in
bytes; in a longer text the line and the column are named, and the mark is
counted in characters as long as an ASCII character stands at the place.
-/

namespace RuncardReview

open Number

/-- Why a text is not a catalog: it breaks off at a place, `rest` being the text
from there on, or the reading came to a halt. -/
inductive ParseError
  | broken (text rest : List Char) (expected : List String)
  | stuck
  deriving DecidableEq

namespace ParseError

def byteSize : List Char → Nat
  | [] => 0
  | c :: s => c.utf8Size + byteSize s

def spaces (n : Nat) : List Char :=
  List.replicate n ' '

/-- The part of a text after its last line feed. -/
def lastLine (s : List Char) : List Char :=
  (s.reverse.takeWhile fun c => c ≠ '\n').reverse

/-- A place in a text: the number of its line from zero, the column, and the
line without its line feed. -/
structure Place where
  line : Nat
  column : Nat
  content : List Char

/-- The place between two parts of a text.  At the end of the text it is the one
after the last character, on the line of that character. -/
def placeOf (before rest : List Char) : Place :=
  match rest with
  | c :: _ =>
      let line := lastLine before
      ⟨before.count '\n', if c.toNat < 128 then line.length else byteSize line,
        line ++ rest.takeWhile fun c => c ≠ '\n'⟩
  | [] =>
      let front := before.dropLast
      let line := lastLine front
      ⟨front.count '\n', line.length + 1,
        line ++ (before.drop front.length).takeWhile fun c => c ≠ '\n'⟩

def expectedText : List String → String
  | [] => ""
  | expected => "expected " ++ ", ".intercalate expected

/-- The text that shows a place in a text of several lines. -/
def placeText (p : Place) : String :=
  let number := natText (p.line + 1)
  let gutter := spaces number.length
  String.ofList
    ("parse error at line ".toList ++ number ++ ", column ".toList ++ natText (p.column + 1)
      ++ '\n' :: gutter ++ " |\n".toList
      ++ number ++ " | ".toList ++ p.content
      ++ '\n' :: gutter ++ " | ".toList ++ spaces p.column ++ "^\n".toList)

def whereText (text rest : List Char) : String :=
  let before := text.take (text.length - rest.length)
  if '\n' ∈ text then placeText (placeOf before rest)
  else String.ofList (text ++ '\n' :: spaces (byteSize before) ++ "^\n".toList)

def message : ParseError → String
  | broken text rest expected =>
      "parse error: " ++ whereText text rest ++ expectedText expected
  | stuck => "parse error: "

end ParseError

namespace CatalogText

/-- Reads the groups of a catalog, without a look at what they hold. -/
def read (text : String) : Except ParseError (List Group) :=
  match groups text.toList with
  | .found gs [] => .ok gs
  | .found _ rest => .error (.broken text.toList rest [])
  | .absent => .error (.broken text.toList text.toList [])
  | .broken rest expected => .error (.broken text.toList rest expected)
  | .stuck => .error .stuck

end CatalogText
end RuncardReview
