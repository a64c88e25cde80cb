import RuncardReview.Check.Basic
import RuncardReview.Check.EmptyPolicy
import RuncardReview.Group

/-!
# Inhibited tools

Every inhibition record of the condition's tools must carry the flag `Y`;
otherwise the lamp is yellow and the tools in question are listed.
-/

namespace RuncardReview
namespace InhibitionStatus

def verdict (rule : Rule) (records : List InhibitionRecord) : Verdict :=
  if records.isEmpty then
    (EmptyPolicy.ofRule rule .pass).verdict "inhibition record"
  else
    let inhibited := records.filter fun r => r.flag ≠ "Y"
    ((Verdict.ofLamp (if inhibited.isEmpty then .pass else .caution)).note
      "recordCount" (.count records.length)).note
      "inhibitedTools" (.texts (inhibited.map fun r => Tool.display ⟨r.tool, r.chamber⟩))

def check : Check where
  needsSettings := false
  run input :=
    Check.lookUp (.inhibition input.condition.toolIds input.condition.recipe) fun records =>
      .ok (verdict input.rule records)

end InhibitionStatus
end RuncardReview
