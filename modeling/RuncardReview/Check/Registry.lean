import RuncardReview.Check.ForwardProcess
import RuncardReview.Check.InhibitionStatus
import RuncardReview.Check.RecipeGroupBlue
import RuncardReview.Check.RuncardOwner
import RuncardReview.Check.WaferCondition

/-!
# Registries of checks

A registry holds one check for each rule type it knows.  A rule of an unknown
type still gets a result: a red one.
-/

namespace RuncardReview

def RuleKind.check : RuleKind → Check
  | forwardProcess => ForwardProcess.check
  | inhibitionStatus => InhibitionStatus.check
  | waferCondition => WaferCondition.check
  | recipeGroupBlue => RecipeGroupBlue.check
  | runcardOwner => RuncardOwner.check

abbrev Registry := Entries Check

namespace Registry

/-- The registry of all kinds under their own names. -/
def builtin : Registry :=
  RuleKind.all.foldl (fun r k => r.insert k.name k.check) Entries.empty

def check? (r : Registry) (ruleType : String) : Except CheckError Check :=
  match r.get? ruleType with
  | some c => .ok c
  | none => .error (.unknownRuleType ruleType)

/-- The result of a rule by the check of its type. -/
def dispatch (r : Registry) (input : CheckInput) : Inquiry Result :=
  match r.check? input.rule.ruleType with
  | .ok c => c.evaluate input
  | .error e => .done (Result.failed input.rule.ruleType e.message)

/-- The text in which a registry is shown to whoever debugs it. -/
def display (r : Registry) : String :=
  "CheckRegistry \x7b rule_types: [" ++ ", ".intercalate (r.names.map Text.quoted) ++ "] \x7d"

end Registry
end RuncardReview
