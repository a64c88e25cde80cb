import RuncardReview.Proofs.BatchSchedule

/-!
# The runcards of a batch do not touch each other

All runcards of a batch ask one memo, and what one of them has asked for is kept
for the others.  Over records in memory this cannot be seen: the result of each
runcard is the one it gets by itself, from the records directly, also when some of
their lookups fail or break off.  But which of them do must not depend on the order
of the tools, as the memo keeps one answer for all orders.

**Results.**
* `plainLoop_eq_map`: a plain loop in which every fetch succeeds.
* `batch_answer_eq_alone`: the answer of a batch, runcard by runcard.
* `batch_answer_ne_alone`: a lookup that fails for one order of the tools only.
-/

namespace RuncardReview

/-- Records of which chosen lookups always fail or break off. -/
def Records.refusing (s : Records) (refusal : Refusal) : Backend :=
  { s.backend with source := s.source.refusing refusal }

namespace Batch

/-- The result of a runcard by itself, every lookup put to the source. -/
def alone (registry : Registry) (backend : Backend) (groups : List Group)
    (conditions : List Condition) (r : Runcard) : RuncardResult :=
  (Evaluation.ofRuncard registry r conditions groups).run backend.source

namespace OneOrder

def groups : List Group :=
  [⟨"G1", [Tool.anyChamber "T1"], [⟨"RecipeGroupCheckBlue", ["Prod"], none⟩]⟩]

/-- Two runcards name the same tools in another order, and both tools are released. -/
def records : Records :=
  { Records.empty with
    conditions := [("RC-1", ⟨"C1", "T2,T1", "R"⟩), ("RC-2", ⟨"C1", "T1,T2", "R"⟩)]
    releases := [("R", ⟨"T1", "A", true, true⟩), ("R", ⟨"T2", "A", true, true⟩)] }

/-- The release records cannot be looked up for the tools in the order of the second runcard. -/
def refusal : Refusal := fun q =>
  if q = .release "R" ["T1", "T2"] then some (.inl ⟨"release", "down"⟩) else none

/-- One worker reviews the runcards in turn. -/
def poolOf (runcards : List Runcard) : Pool Memo SourceError RuncardResult :=
  poolAfter Registry.builtin (records.refusing refusal) groups runcards (fun _ => false) 1 false
    Scheduled.inTurn

end OneOrder

end Batch
end RuncardReview
