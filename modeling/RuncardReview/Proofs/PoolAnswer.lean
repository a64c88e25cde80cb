import Mathlib.Data.List.Forall2
import RuncardReview.Proofs.PoolLedger

/-!
# The answer of a complete run

In a complete run every worker has left, so what is held is what is noted.  The
noted numbers, brought into order, are then all numbers up to the next one: the
jobs that were processed form a front part of the row, each processed once.  The
answer is read off their ends.

**Results.**
* `noted_of_ascending`: numbers that were noted in order need no sorting.
* `WholeLedger.noted_numbers`: the noted numbers are `0, 1, …` without a gap.
* `WholeLedger.ended`: each noted end is the end of the job of that number.
* `WholeLedger.all_or_failure`: if the stop flag is down, all jobs were processed, or
  one that was processed failed.
* `eq_map_ok_of_collect`, `collect_eq_error_iff`: the values of
  all ends, or the first failure among them.
-/

namespace RuncardReview
namespace Pool

open List (Perm)
open scoped List

variable {σ ε α : Type}

/-- The ends that were noted, in the order of the jobs. -/
def ends (p : Pool σ ε α) : List (Except ε α) :=
  p.noted.map Prod.snd

/-- Ends that were noted in ascending order need no sorting. -/
theorem noted_of_ascending {p : Pool σ ε α}
    (ascending : ((p.workers.flatMap Worker.noted).map Prod.fst).Pairwise (· ≤ ·)) :
    p.noted = p.workers.flatMap Worker.noted :=
  List.mergeSort_of_pairwise ((List.pairwise_map.mp ascending).imp decide_eq_true)

/-! ## Reading an answer off the ends -/

theorem eq_map_ok_of_collect {l : List (Except ε α)} {as : List α} (h : collect l = .ok as) :
    l = as.map .ok := by
  induction l generalizing as with
  | nil =>
      cases h
      rfl
  | cons e l ih =>
      cases e with
      | error e => cases h
      | ok a =>
          cases hl : collect l with
          | error e => simp [collect, hl] at h
          | ok bs =>
              have whole : as = a :: bs := by simpa [collect, hl] using h.symm
              rw [whole, List.map_cons, ← ih hl]

/-- A value or a failure as the outcome of a computation that does not break off. -/
def settled {β : Type} : Except ε β → Outcome ε β
  | .ok b => .ok b
  | .error e => .error e

/-- The failure that an end is. -/
def failure? : Except ε α → Option ε
  | .ok _ => none
  | .error e => some e

theorem isSome_failure? (e : Except ε α) :
    (failure? e).isSome = isFailure e := by
  cases e <;> rfl

theorem exists_findSome?_failure? {l : List (Except ε α)}
    (failing : ∃ e ∈ l, isFailure e = true) :
    ∃ e, l.findSome? failure? = some e := by
  simp only [← isSome_failure?] at failing
  exact Option.isSome_iff_exists.mp (List.findSome?_isSome_iff.mpr failing)

theorem collect_eq_error_iff {l : List (Except ε α)} {e : ε} :
    collect l = .error e ↔ l.findSome? failure? = some e := by
  induction l with
  | nil => simp [collect]
  | cons d l ih =>
      cases d with
      | error d => simp [collect, failure?, List.findSome?_cons]
      | ok a =>
          rw [List.findSome?_cons_of_isNone (by rfl), ← ih]
          cases hl : collect l <;> simp [collect, hl]

/-! ## A complete pool -/

namespace WholeLedger

variable {work : Work σ ε α} {t : Tracking work} {p : Pool σ ε α}

theorem phase_eq_gone (h : WholeLedger t p) (complete : isComplete p = true) :
    ∀ w ∈ p.workers, w.phase = .gone := by
  intro w hw
  have finished := List.all_eq_true.mp complete w hw
  have stayed : remains w.phase = [] := List.flatMap_eq_nil_iff.mp h.whole w hw
  obtain ⟨phase, ends⟩ := w
  cases phase with
  | gone => rfl
  | died q => cases stayed
  | _ => simp [isOver] at finished

theorem payload?_eq_none (h : WholeLedger t p) :
    p.payload? = none := by
  rw [payload?_eq_head?, h.whole]
  rfl

theorem noted_perm (p : Pool σ ε α) :
    p.noted ~ p.workers.flatMap Worker.noted :=
  List.mergeSort_perm _ _

theorem mem_noted {x : Nat × Except ε α} :
    x ∈ p.noted ↔ ∃ w ∈ p.workers, x ∈ w.noted := by
  rw [(noted_perm p).mem_iff, List.mem_flatMap]

/-- Without a worker in the middle of a job, what was fetched is what was noted. -/
theorem takenBy_complete (h : WholeLedger t p) (complete : isComplete p = true) :
    takenBy p ~ p.noted.map Prod.fst := by
  have same : takenBy p = (p.workers.flatMap Worker.noted).map Prod.fst := by
    rw [takenBy, List.map_flatMap]
    refine List.flatMap_congr fun w hw => ?_
    rw [taken, h.phase_eq_gone complete w hw]
    simp [inWork]
  rw [same]
  exact ((noted_perm p).map Prod.fst).symm

theorem heldBy_complete (h : WholeLedger t p) (complete : isComplete p = true) :
    heldBy p = takenBy p := by
  refine List.flatMap_congr fun w hw => ?_
  rw [Pool.held, h.phase_eq_gone complete w hw]
  simp [unfetched]

theorem sorted_noted (p : Pool σ ε α) :
    (p.noted.map Prod.fst).Pairwise (· ≤ ·) := by
  refine List.pairwise_map.mpr ?_
  have sorted : p.noted.Pairwise fun a b => decide (a.1 ≤ b.1) = true :=
    List.pairwise_mergeSort
      (by intro a b c; simp only [decide_eq_true_eq]; exact Nat.le_trans)
      (by intro a b; simp [Nat.le_total]) _
  exact sorted.imp fun h => by simpa using h

theorem noted_eq_issued (h : WholeLedger t p) (complete : isComplete p = true) :
    p.noted.map Prod.fst = issued work p := by
  have account : p.noted.map Prod.fst ~ issued work p :=
    calc p.noted.map Prod.fst
      _ ~ takenBy p := (h.takenBy_complete complete).symm
      _ = heldBy p := (h.heldBy_complete complete).symm
      _ ~ issued work p := h.held
  exact Perm.eq_of_pairwise (fun a b _ _ => Nat.le_antisymm) (sorted_noted p)
    List.pairwise_le_range account

theorem length_ends (h : WholeLedger t p) (complete : isComplete p = true) :
    (ends p).length = min p.next work.size := by
  simpa [ends, issued] using congrArg List.length (h.noted_eq_issued complete)

theorem length_ends_le (h : WholeLedger t p) (complete : isComplete p = true) :
    (ends p).length ≤ work.size := by
  rw [h.length_ends complete]
  exact Nat.min_le_right _ _

/-- The noted numbers, in order, are those from zero on. -/
theorem noted_numbers (h : WholeLedger t p) (complete : isComplete p = true) :
    p.noted.map Prod.fst = List.range (ends p).length := by
  rw [h.noted_eq_issued complete, h.length_ends complete, issued]

theorem ended (h : WholeLedger t p) (complete : isComplete p = true) {i : Nat} {e : Except ε α}
    (he : (ends p)[i]? = some e) :
    t.Ended i e := by
  obtain ⟨x, hx, rfl⟩ : ∃ x, p.noted[i]? = some x ∧ x.2 = e := by
    simpa [ends] using he
  have number : x.1 = i := by
    have atI : (p.noted.map Prod.fst)[i]? = some x.1 := by simp [hx]
    rw [h.noted_numbers complete] at atI
    obtain ⟨bound, same⟩ := List.getElem?_eq_some_iff.mp atI
    simpa using same.symm
  obtain ⟨w, hw, noted⟩ := mem_noted.mp (List.mem_of_getElem? hx)
  rw [← number]
  exact (h.workers w hw).noted x noted

theorem answer_eq (h : WholeLedger t p) :
    p.answer = settled (collect (ends p)) := by
  simp only [answer, h.payload?_eq_none, ends]
  cases collect (p.noted.map Prod.snd) <;> rfl

/-- Workers that have all left with the stop flag down have found no job left or
a failure. -/
theorem all_or_failure (h : WholeLedger t p) (complete : isComplete p = true)
    (someone : p.workers ≠ []) (unstopped : p.stop = false) :
    (ends p).length = work.size ∨ ∃ e ∈ ends p, isFailure e = true := by
  obtain ⟨w, hw⟩ := List.exists_mem_of_ne_nil _ someone
  have fits := (h.workers w hw).phase
  rw [h.phase_eq_gone complete w hw] at fits
  rcases fits with stopped | failed | finished
  · rw [unstopped] at stopped
    cases stopped
  · right
    obtain ⟨v, hv, x, hx, failing⟩ := h.failure failed
    exact ⟨x.2, List.mem_map_of_mem (mem_noted.mpr ⟨v, hv, hx⟩), failing⟩
  · left
    rw [h.length_ends complete, Nat.min_eq_right finished]

end WholeLedger

/-- The numbers that a complete run has fetched are those that it has noted. -/
theorem fetches_perm {work : Work σ ε α} (unbroken : Unbroken work) (t : Tracking work)
    {workers : Nat} {stop : Bool} {s : σ} (holds : t.holds s) (moves : List Move)
    (complete : isComplete (run work moves (start workers stop s)) = true) :
    fetches work moves (start workers stop s) ~
      List.range (ends (run work moves (start workers stop s))).length := by
  have ledger : WholeLedger t (run work moves (start workers stop s)) :=
    ((Ledger.start t workers stop holds).run moves).whole unbroken
  have none : takenBy (start workers stop s : Pool σ ε α) = [] := by
    refine List.flatMap_eq_nil_iff.mpr fun w hw => ?_
    rw [List.eq_of_mem_replicate hw]
    rfl
  have account := takenBy_run unbroken moves (start workers stop s)
  rw [none, List.nil_append] at account
  rw [← ledger.noted_numbers complete]
  exact account.symm.trans (ledger.takenBy_complete complete)

end Pool
end RuncardReview
