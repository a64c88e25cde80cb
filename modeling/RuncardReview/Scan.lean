/-!
# Scanning

A scanner looks at the text from one position on.  It may find its construct
and say where the text goes on; it may see that the construct does not begin
here, which consumes nothing; or it may find the construct begun and not
finished.  In that case the whole scan has failed, and the break says where and
what was expected there, the innermost expectation first.

A repetition demands that every round shortens the text.  A round that does not
would repeat for ever; it ends the scan as `stuck`.

**Definitions beside the scanners.**
* `Shortens`: whatever a scanner finds leaves a shorter text.
-/

namespace RuncardReview

/-- What a scanner sees at a position. -/
inductive Step (α : Type)
  | found (a : α) (rest : List Char)
  | absent
  | broken (rest : List Char) (expected : List String)
  | stuck

namespace Step

variable {α β : Type}

def andThen (x : Step α) (f : α → List Char → Step β) : Step β :=
  match x with
  | found a rest => f a rest
  | absent => absent
  | broken rest expected => broken rest expected
  | stuck => stuck

def map (f : α → β) (x : Step α) : Step β :=
  x.andThen fun a rest => found (f a) rest

end Step

def Scanner (α : Type) : Type :=
  List Char → Step α

namespace Scanner

variable {α β : Type}

def pure (a : α) : Scanner α :=
  fun s => .found a s

def bind (p : Scanner α) (f : α → Scanner β) : Scanner β :=
  fun s => (p s).andThen f

instance : Monad Scanner where
  pure := Scanner.pure
  bind := Scanner.bind

/-- The first construct, or where it does not begin the second. -/
def orElse (p q : Scanner α) : Scanner α :=
  fun s =>
    match p s with
    | .absent => q s
    | r => r

/-- The construct if it begins here, and otherwise nothing. -/
def opt (p : Scanner α) : Scanner (Option α) :=
  fun s =>
    match p s with
    | .absent => .found none s
    | r => r.map some

/-- From here on the construct has to be there. -/
def require (p : Scanner α) : Scanner α :=
  fun s =>
    match p s with
    | .absent => .broken s []
    | r => r

def expecting (what : String) (p : Scanner α) : Scanner α :=
  fun s =>
    match p s with
    | .broken rest expected => .broken rest (expected ++ [what])
    | r => r

/-- The longest run of characters of a class, which may be empty. -/
def span (c : Char → Bool) : Scanner (List Char) :=
  fun s => .found (s.takeWhile c) (s.dropWhile c)

/-- The longest run of characters of a class, at least one. -/
def span1 (c : Char → Bool) : Scanner (List Char) :=
  fun s =>
    if (s.takeWhile c).isEmpty then .absent
    else .found (s.takeWhile c) (s.dropWhile c)

def char (c : Char) : Scanner Unit
  | [] => .absent
  | x :: s => if x = c then .found () s else .absent

def anyChar : Scanner Char
  | [] => .absent
  | x :: s => .found x s

def word : List Char → Scanner Unit
  | [] => fun s => .found () s
  | c :: cs => fun s => (char c s).andThen fun _ rest => word cs rest

def atEnd : Scanner Unit
  | [] => .found () []
  | _ :: _ => .absent

def remainder : Scanner (List Char) :=
  fun s => .found s []

def many (p : Scanner α) (s : List Char) : Step (List α) :=
  match p s with
  | .found a rest =>
      if rest.length < s.length then (many p rest).map (a :: ·) else .stuck
  | .absent => .found [] s
  | .broken rest expected => .broken rest expected
  | .stuck => .stuck
termination_by s.length

/-- The rounds of a separated list after the first construct: a separator and a
construct.  A separator that no construct follows is left where it is. -/
def manyAfter (p : Scanner α) (separator : Scanner Unit) (s : List Char) : Step (List α) :=
  match separator s with
  | .found _ afterSeparator =>
      if afterSeparator.length < s.length then
        match p afterSeparator with
        | .found a rest =>
            if rest.length < s.length then (manyAfter p separator rest).map (a :: ·) else .stuck
        | .absent => .found [] s
        | .broken rest expected => .broken rest expected
        | .stuck => .stuck
      else .stuck
  | .absent => .found [] s
  | .broken rest expected => .broken rest expected
  | .stuck => .stuck
termination_by s.length

def separated1 (p : Scanner α) (separator : Scanner Unit) : Scanner (List α) :=
  fun s => (p s).andThen fun a rest => (manyAfter p separator rest).map (a :: ·)

def separated (p : Scanner α) (separator : Scanner Unit) : Scanner (List α) :=
  fun s =>
    match separated1 p separator s with
    | .absent => .found [] s
    | r => r

/-- The construct that a whole text is, if it is one. -/
def whole? (p : Scanner α) (s : List Char) : Option α :=
  match p s with
  | .found a [] => some a
  | _ => none

/-- Whatever the scanner finds leaves a shorter text. -/
def Shortens (p : Scanner α) : Prop :=
  ∀ s a rest, p s = .found a rest → rest.length < s.length

end Scanner
end RuncardReview
