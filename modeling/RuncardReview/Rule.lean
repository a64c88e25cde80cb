import RuncardReview.Distinct
import RuncardReview.Settings

/-!
# Rules

A rule names its type, the lot types it covers and, when it was configured, its
settings.  A rule without settings is not the same as one with empty settings.
-/

namespace RuncardReview

/-- One configured rule of a group. -/
structure Rule where
  ruleType : String
  lotTypes : List String
  settings : Option Settings
  deriving DecidableEq

namespace Rule

/-- A rule of a type, with neither lot types nor settings. -/
def ofType (ruleType : String) : Rule :=
  ⟨ruleType, [], none⟩

/-- Adds lot types; those already there stay where they are. -/
def addLotTypes (r : Rule) (lots : List String) : Rule :=
  { r with lotTypes := Distinct.addAllNew r.lotTypes lots }

def withSettings (r : Rule) (s : Settings) : Rule :=
  { r with settings := some s }

/-- A part of the production line: its id starts with `TM`. -/
def isProduction (part : String) : Bool :=
  "TM".toList.isPrefixOf part.toList

/-- Whether the lot types cover a part.  `Prod` covers the production parts and
`C/W` all others; a runcard without a part is not covered. -/
def covers (r : Rule) : Option String → Bool
  | none => false
  | some part =>
      (decide ("Prod" ∈ r.lotTypes) && isProduction part)
        || (decide ("C/W" ∈ r.lotTypes) && !isProduction part)

end Rule

/-- The kinds of rules that come with the library. -/
inductive RuleKind
  | forwardProcess
  | inhibitionStatus
  | waferCondition
  | recipeGroupBlue
  | runcardOwner
  deriving DecidableEq

namespace RuleKind

def all : List RuleKind :=
  [forwardProcess, inhibitionStatus, waferCondition, recipeGroupBlue, runcardOwner]

/-- The rule type under which a kind is known in catalogs and results. -/
def name : RuleKind → String
  | forwardProcess => "ForwardProcess"
  | inhibitionStatus => "InhibitionCheckStatus"
  | waferCondition => "WaferCondition"
  | recipeGroupBlue => "RecipeGroupCheckBlue"
  | runcardOwner => "RCOwner"

def ofName? (s : String) : Option RuleKind :=
  all.find? fun k => k.name = s

end RuleKind
end RuncardReview
