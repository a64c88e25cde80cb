import RuncardReview.Lookup
import RuncardReview.Result
import RuncardReview.Rule
import RuncardReview.Runcard
import RuncardReview.Text.Quoted

/-!
# Checks and the gates before them

A check is the algorithm of one rule type.  Before it runs, three gates are
passed in order:

1. a rule without lot types is skipped;
2. a rule whose lot types do not cover the runcard's part is skipped;
3. a rule without settings is skipped if its check needs them.

What comes back from a check, an error or a break-off included, is filed as a
result, so a check cannot keep others from being run.
-/

namespace RuncardReview

/-- What a check may look at. -/
structure CheckInput where
  condition : Condition
  runcard : Runcard
  rule : Rule

/-- The text in which the input of a check is shown to whoever debugs it. -/
def CheckInput.display (input : CheckInput) : String :=
  "CheckInput \x7b condition: ConditionInfo \x7b condition: "
    ++ Text.quoted input.condition.label
    ++ ", tool_id_list: " ++ Text.quoted input.condition.toolList
    ++ ", recipe_id: " ++ Text.quoted input.condition.recipe
    ++ " \x7d, runcard: " ++ Text.quoted input.runcard.id
    ++ ", rule: " ++ Text.quoted input.rule.ruleType ++ ", .. \x7d"

abbrev CheckOutcome : Type :=
  Outcome CheckError Verdict

/-- The algorithm of one rule type. -/
structure Check where
  /-- Whether a rule without settings is skipped. -/
  needsSettings : Bool
  run : CheckInput → Inquiry CheckOutcome

namespace Check

/-- Why a rule is skipped before its check runs, if it is. -/
def skipReason? (needsSettings : Bool) (input : CheckInput) : Option String :=
  if input.rule.lotTypes.isEmpty then some "lotType is empty => skip check"
  else if !input.rule.covers input.runcard.part then some "lotType mismatch => skip check"
  else if needsSettings && input.rule.settings.isNone then some "No settings => skip check"
  else none

/-- The result under which the end of a check is filed. -/
def file (ruleType : String) : CheckOutcome → Result
  | .ok v => Result.ofVerdict ruleType v
  | .error e => Result.failed ruleType e.message
  | .panicked p => Result.failed ruleType (CheckError.panicked p.message).message

/-- Passes the gates, runs the check, and files how it ended. -/
def evaluate (c : Check) (input : CheckInput) : Inquiry Result :=
  match skipReason? c.needsSettings input with
  | some reason => .done (Result.ofVerdict input.rule.ruleType (Verdict.skip reason))
  | none => (c.run input).map (file input.rule.ruleType)

/-- Puts a query and goes on with the answer.  A lookup that fails or breaks off
ends the check in the same way. -/
def lookUp (q : Query) (next : q.Answer → CheckOutcome) : Inquiry CheckOutcome :=
  .ask q fun
    | .ok a => .done (next a)
    | .error e => .done (.error (.source e))
    | .panicked p => .done (.panicked p)

end Check
end RuncardReview
