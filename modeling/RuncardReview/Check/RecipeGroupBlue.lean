import RuncardReview.Chamber.Expansion
import RuncardReview.Check.Basic
import RuncardReview.Check.EmptyPolicy

/-!
# Released recipes

Every tool of the condition must have the recipe released and enabled on
chambers that satisfy each bracket of the recipe id.
-/

namespace RuncardReview
namespace RecipeGroupBlue

/-- Whether a tool satisfies every demand by some released and enabled record. -/
def released (records : List ReleaseRecord) (tool : String) (demands : List Recipe.OrSet) :
    Bool :=
  demands.all fun orSet => records.any fun r =>
    r.tool = tool && r.released && r.enabled && Recipe.accepts orSet r.chamber

/-- The tools that fail, in order of first appearance. -/
def failing (recipe : String) (tools : List String) (records : List ReleaseRecord) :
    List String :=
  (((Expansion.ofRecipe recipe).perTool tools).filter fun p =>
    !released records p.1 p.2).map Prod.fst

/-- The verdict on the records found for at least one tool. -/
def verdict (policy : EmptyPolicy) (condition : Condition) (records : List ReleaseRecord) :
    Verdict :=
  if records.isEmpty && policy ≠ .fail then policy.verdict "release record"
  else
    let tools := condition.toolIds
    let bad := failing condition.recipe tools records
    (((Verdict.ofLamp (if bad.isEmpty then .pass else .fail)).note
      "recipeId" (.text condition.recipe)).note
      "toolCount" (.count (Distinct.firsts tools).length)).note
      "failTools" (.texts bad)

def check : Check where
  needsSettings := false
  run input :=
    let policy := EmptyPolicy.ofRule input.rule .fail
    let tools := input.condition.toolIds
    if tools.isEmpty then .done (.ok (policy.verdict "tool"))
    else Check.lookUp (.release input.condition.recipe tools) fun records =>
      .ok (verdict policy input.condition records)

end RecipeGroupBlue
end RuncardReview
