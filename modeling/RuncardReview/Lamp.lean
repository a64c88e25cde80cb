import RuncardReview.Number.Integer

/-!
# Lamps

The severity of a result.  Lamps are ordered by severity, so the worst of
several is their maximum.
-/

namespace RuncardReview

/-- The severity of a result, from harmless to serious. -/
inductive Lamp
  /-- The rule did not apply. -/
  | skip
  /-- Green. -/
  | pass
  /-- Yellow. -/
  | caution
  /-- Red. -/
  | fail
  deriving DecidableEq

namespace Lamp

def code : Lamp → Nat
  | skip => 0
  | pass => 1
  | caution => 2
  | fail => 3

def ofCode? : Nat → Option Lamp
  | 0 => some skip
  | 1 => some pass
  | 2 => some caution
  | 3 => some fail
  | _ => none

theorem ofCode?_code (l : Lamp) : ofCode? l.code = some l := by
  cases l <;> rfl

/-- What is said of a number that stands for no lamp. -/
def invalidCode (n : Nat) : String :=
  "invalid lamp code " ++ Number.countText n

def display (l : Lamp) : String :=
  Number.countText l.code

instance : LE Lamp :=
  ⟨fun a b => a.code ≤ b.code⟩

instance (a b : Lamp) : Decidable (a ≤ b) :=
  inferInstanceAs (Decidable (a.code ≤ b.code))

instance : Max Lamp :=
  ⟨fun a b => if a ≤ b then b else a⟩

/-- The worst of several lamps, if there are any. -/
def worst? : List Lamp → Option Lamp
  | [] => none
  | l :: ls => some (ls.foldl max l)

end Lamp
end RuncardReview
