import RuncardReview.Check.Basic

/-!
# Runcards of listed owners

A runcard is flagged yellow if its engineer is one of the `owners`, or belongs
to one of the `sections`.  The engineer's section is looked up only if some are
listed.
-/

namespace RuncardReview
namespace RuncardOwner

/-- The verdict for an engineer whose section, if any, is known. -/
def verdict (s : Settings) (engineer : String) (found : Option String) : Verdict :=
  let owner := decide (engineer ∈ s.texts "owners")
  let listed := match found with
    | some name => decide (name ∈ s.texts "sections")
    | none => false
  let v := (((Verdict.ofLamp (if owner || listed then .caution else .pass)).note
    "engineer" (.text engineer)).note
    "ownerMatch" (.bool owner)).note
    "sectionMatch" (.bool listed)
  match found with
  | some name => v.note "section" (.text name)
  | none => v

def check : Check where
  needsSettings := true
  run input :=
    let s := input.rule.settings.getD Entries.empty
    match input.runcard.engineerName with
    | none => .done (.ok ((Verdict.ofLamp .pass).note "msg" (.text "No issuing engineer")))
    | some engineer =>
        if (s.texts "sections").isEmpty then .done (.ok (verdict s engineer none))
        else Check.lookUp (.engineerSection engineer) fun found => .ok (verdict s engineer found)

end RuncardOwner
end RuncardReview
