import RuncardReview.Evaluation
import RuncardReview.Memo
import RuncardReview.Pool

/-!
# Review of a batch

The runcards of some sections that were issued within a window are evaluated by
a pool of workers.  The workers share one memory of lookups.  The results come
in the order of the runcards; a runcard that was not started is left out.
-/

namespace RuncardReview
namespace Batch

/-- Which runcards are reviewed, and by how many workers. -/
structure Request where
  sections : List String
  start : Timestamp
  stop : Timestamp
  workers : Nat

/-- When the stop flag goes up: before the start, or while the conditions of a
runcard are fetched. -/
structure StopSignal where
  atStart : Bool
  during : String → Bool

/-- What a batch comes to. -/
structure Report where
  answer : Outcome SourceError (List RuncardResult)
  memo : Memo
  stopped : Bool

/-- The number of workers that are put to work: at least one, and no more than
there are runcards. -/
def workerCount (asked runcards : Nat) : Nat :=
  max 1 (min asked (max runcards 1))

/-- The job of one runcard: its conditions are fetched, and then evaluated. -/
def job (registry : Registry) (backend : Backend) (groups : List Group)
    (runcard : Runcard) : Outcome SourceError (Inquiry RuncardResult) :=
  match backend.conditions runcard.id with
  | .ok conditions => .ok (Evaluation.ofRuncard registry runcard conditions groups)
  | .error e => .error e
  | .panicked p => .panicked p

/-- The jobs of a batch, one for each runcard. -/
def work (registry : Registry) (backend : Backend) (groups : List Group)
    (runcards : List Runcard) (during : String → Bool) :
    Work Memo SourceError RuncardResult where
  size := runcards.length
  fetch i :=
    match runcards[i]? with
    | none => .ok (.done ⟨"", []⟩)
    | some r => job registry backend groups r
  serve := Memo.serve backend.source
  stops i :=
    match runcards[i]? with
    | none => false
    | some r => during r.id

/-- Reviews runcards against groups, the workers taking turns. -/
def review (registry : Registry) (backend : Backend) (groups : List Group)
    (runcards : List Runcard) (workers : Nat) (signal : StopSignal) : Report :=
  let pool := Pool.takeTurns (work registry backend groups runcards signal.during)
    (Pool.start (workerCount workers runcards.length) signal.atStart Memo.empty)
  ⟨pool.answer, pool.shared, pool.stop⟩

/-- Fetches the groups and the runcards of a request and reviews them. -/
def run (registry : Registry) (backend : Backend) (request : Request)
    (signal : StopSignal) : Report :=
  match backend.groups request.sections with
  | .error e => ⟨.error e, Memo.empty, signal.atStart⟩
  | .panicked p => ⟨.panicked p, Memo.empty, signal.atStart⟩
  | .ok groups =>
      match backend.runcards request.sections request.start request.stop with
      | .error e => ⟨.error e, Memo.empty, signal.atStart⟩
      | .panicked p => ⟨.panicked p, Memo.empty, signal.atStart⟩
      | .ok runcards => review registry backend groups runcards request.workers signal

end Batch
end RuncardReview
