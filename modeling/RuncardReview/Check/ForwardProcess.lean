import RuncardReview.Check.Basic
import RuncardReview.Check.EmptyPolicy

/-!
# The next steps of the route

The first `forwardSteps` steps of the lot's route (three unless set) are held
against patterns: with `measurementOnly`, only the measurement steps among them.
A step violates the rule if none of the `recipeIds` patterns occurs in its
recipe, where there are any, or if one of the `toolIds` patterns does not occur
in its tool.
-/

namespace RuncardReview
namespace ForwardProcess

open Text

/-- Whether a pattern occurs in an id.  One leading `%` says nothing. -/
def patternHolds (pattern id : String) : Bool :=
  match pattern.toList with
  | '%' :: p => occursIn p id.toList
  | p => occursIn p id.toList

def passes (recipes tools : List String) (r : ProcessRecord) : Bool :=
  (recipes.isEmpty || recipes.any fun p => patternHolds p r.recipe)
    && tools.all fun p => patternHolds p r.tool

/-- The number of steps to look at.  A negative setting means none. -/
def stepCount (s : Settings) : Nat :=
  (s.int "forwardSteps" 3).toInt.toNat

/-- The steps that are held against the patterns. -/
def window (s : Settings) (records : List ProcessRecord) : List ProcessRecord :=
  let sorted := records.mergeSort fun a b => decide (a.step ≤ b.step)
  (sorted.take (stepCount s)).filter fun r =>
    !s.bool "measurementOnly" false || r.category = "Measurement"

def verdict (rule : Rule) (records : List ProcessRecord) : Verdict :=
  let s := rule.settings.getD Entries.empty
  let checked := window s records
  let steps := Value.count (stepCount s)
  if checked.isEmpty then
    ((EmptyPolicy.ofRule rule .pass).verdict "forward process").note "forwardSteps" steps
  else
    let failing := checked.filter fun r => !passes (s.texts "recipeIds") (s.texts "toolIds") r
    (((Verdict.ofLamp (if failing.isEmpty then .pass else .fail)).note
      "forwardSteps" steps).note
      "checkedSteps" (.count checked.length)).note
      "failSteps" (.list (failing.map fun r => .count r.step.toNat))

def check : Check where
  needsSettings := true
  run input :=
    Check.lookUp (.forward input.runcard.id input.condition.label) fun records =>
      .ok (verdict input.rule records)

end ForwardProcess
end RuncardReview
