import RuncardReview.Failure
import RuncardReview.Lamp
import RuncardReview.Settings

/-!
# Verdicts and results

A check ends in a verdict: a lamp and the evidence behind it.  A result is a
verdict filed under the rule type it belongs to.
-/

namespace RuncardReview

abbrev Detail := Entries Value

/-- A lamp and the evidence behind it. -/
structure Verdict where
  lamp : Lamp
  detail : Detail

namespace Verdict

def ofLamp (lamp : Lamp) : Verdict :=
  ⟨lamp, Entries.empty⟩

def note (v : Verdict) (name : String) (value : Value) : Verdict :=
  { v with detail := v.detail.insert name value }

def skip (reason : String) : Verdict :=
  (ofLamp .skip).note "msg" (.text reason)

def display (v : Verdict) : String :=
  v.detail.toList.foldl (fun s e => s ++ ", " ++ e.1 ++ "=" ++ e.2.display)
    ("lamp " ++ v.lamp.display)

end Verdict

/-- The final word on one rule type. -/
structure Result where
  ruleType : String
  lamp : Lamp
  detail : Detail
  deriving DecidableEq

namespace Result

def ofLamp (ruleType : String) (lamp : Lamp) : Result :=
  ⟨ruleType, lamp, Entries.empty⟩

def ofVerdict (ruleType : String) (v : Verdict) : Result :=
  ⟨ruleType, v.lamp, v.detail⟩

def note (r : Result) (name : String) (value : Value) : Result :=
  { r with detail := r.detail.insert name value }

/-- A red result that carries the text of what went wrong. -/
def failed (ruleType message : String) : Result :=
  (ofLamp ruleType .fail).note "error" (.text message)

def display (r : Result) : String :=
  r.ruleType ++ " = " ++ r.lamp.display

end Result

/-- The results of one condition, one for each rule type. -/
structure ConditionResult where
  condition : String
  toolChambers : List String
  results : List Result
  deriving DecidableEq

namespace ConditionResult

def result? (c : ConditionResult) (ruleType : String) : Option Result :=
  c.results.find? fun r => r.ruleType = ruleType

/-- The text in which the results of a condition are shown. -/
def display (c : ConditionResult) : String :=
  c.condition ++ ": [" ++ ", ".intercalate (c.results.map Result.display) ++ "]"

end ConditionResult

/-- The results of one runcard. -/
structure RuncardResult where
  runcard : String
  conditions : List ConditionResult
  deriving DecidableEq

namespace RuncardResult

/-- The most severe lamp of all conditions, if there is any result. -/
def worst? (r : RuncardResult) : Option Lamp :=
  Lamp.worst? (r.conditions.flatMap fun c => c.results.map Result.lamp)

/-- The text in which the results of a runcard are shown. -/
def display (r : RuncardResult) : String :=
  r.conditions.foldl (fun s c => s ++ ", " ++ c.display) ("runcard " ++ r.runcard)

end RuncardResult
end RuncardReview
