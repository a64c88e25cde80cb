import RuncardReview.Proofs.PoolAnswer

/-!
# The answer of a pool that loses workers

A job that breaks off takes its worker with it, and the failure flag stays down: the
other workers go on.  What the first of the lost workers, in the order of the
workers, left behind is then the answer, whatever the others have noted.  It need
not come from the first troubled job of the row, as a worker may have gone on to a
later one meanwhile.  But each worker meets at most one troubled job, so there are
fewer troubled jobs before the one that shows than there are workers.

**Results.**
* `Ledger.exists_end`: what a complete pool comes to if one of its jobs breaks off.
-/

namespace RuncardReview
namespace Pool

variable {σ ε α : Type}

/-- The first job that is troubled. -/
def IsFirstTrouble (work : Work σ ε α) (i : Nat) : Prop :=
  troubled work i = true ∧ ∀ j < i, troubled work j = false

theorem IsFirstTrouble.unique {work : Work σ ε α} {i j : Nat} (first : IsFirstTrouble work i)
    (other : IsFirstTrouble work j) :
    i = j := by
  rcases Nat.lt_trichotomy i j with h | h | h
  · exact absurd first.1 (by simp [other.2 i h])
  · exact h
  · exact absurd other.1 (by simp [first.2 j h])

theorem isFirstTrouble_of_countP_eq_zero {work : Work σ ε α} {i : Nat}
    (none : (List.range i).countP (troubled work) = 0) (bad : troubled work i = true) :
    IsFirstTrouble work i :=
  ⟨bad, fun j hj => Bool.eq_false_iff.mpr (List.countP_eq_zero.mp none j (List.mem_range.mpr hj))⟩

namespace Ledger

variable {work : Work σ ε α} {t : Tracking work} {p : Pool σ ε α}

/-- Before a job that was issued there are fewer troubled ones than workers, if it is
troubled itself. -/
theorem countP_range_lt (h : Ledger t p) {i : Nat} (member : i ∈ issued work p)
    (bad : troubled work i = true) :
    (List.range i).countP (troubled work) < p.workers.length := by
  have bound : i + 1 ≤ min p.next work.size := List.mem_range.mp member
  calc (List.range i).countP (troubled work)
    _ < (List.range (i + 1)).countP (troubled work) := by
        rw [List.range_succ, List.countP_append, List.countP_singleton, if_pos bad]
        exact Nat.lt_succ_self _
    _ ≤ (issued work p).countP (troubled work) :=
        (List.range_sublist.mpr bound).countP_le
    _ ≤ p.workers.length := h.countP_issued_le

/-- A worker that was lost shows in the answer. -/
theorem exists_broken_of_payload (h : Ledger t p) {q : Payload} (left : p.payload? = some q) :
    p.answer = .panicked q ∧ ∃ i < work.size, work.fetch i = .panicked q ∧
      (List.range i).countP (troubled work) < p.workers.length := by
  have among : q ∈ remainsBy p := List.mem_of_mem_head? (payload?_eq_head? p ▸ left)
  obtain ⟨i, member, broken⟩ := h.exists_broken among
  have bound : i < min p.next work.size := List.mem_range.mp member
  refine ⟨by simp only [answer, left], i, by omega, broken, h.countP_range_lt member ?_⟩
  simp only [troubled, broken]

end Ledger

namespace WholeLedger

variable {work : Work σ ε α} {t : Tracking work} {p : Pool σ ε α}

/-- Among the jobs that were noted there is none that breaks off. -/
theorem exists_failing (h : WholeLedger t p) (complete : isComplete p = true)
    (someone : p.workers ≠ []) (unstopped : p.stop = false) {i : Nat} (bound : i < work.size)
    {q : Payload} (broken : work.fetch i = .panicked q) :
    ∃ e ∈ ends p, isFailure e = true := by
  refine (h.all_or_failure complete someone unstopped).resolve_left fun all => ?_
  obtain ⟨e, he⟩ : ∃ e, (ends p)[i]? = some e := by
    rw [← all] at bound
    exact ⟨_, List.getElem?_eq_getElem bound⟩
  have ended := h.ended complete he
  cases e with
  | ok a =>
      obtain ⟨⟨x, hx⟩, -⟩ := ended
      cases broken.symm.trans hx
  | error e =>
      have failing : work.fetch i = .error e := ended
      cases broken.symm.trans failing

/-- The first failure that was noted is that of the first troubled job. -/
theorem answer_of_failing (h : WholeLedger t p) (complete : isComplete p = true)
    (failing : ∃ e ∈ ends p, isFailure e = true) {i : Nat} (first : IsFirstTrouble work i) :
    ∃ e, work.fetch i = .error e ∧ p.answer = .error e := by
  obtain ⟨e, found⟩ := exists_findSome?_failure? failing
  obtain ⟨front, d, back, split, here, before⟩ := List.findSome?_eq_some_iff.mp found
  have end_ : ∀ {m d}, (ends p)[m]? = some d → troubled work m = isFailure d := fun hd =>
    (h.ended complete hd).troubled_eq
  have atD : (ends p)[front.length]? = some d := by simp [split]
  obtain rfl : d = .error e := by
    cases d with
    | ok a => cases here
    | error d => rw [Option.some.inj here]
  have noted : IsFirstTrouble work front.length := by
    refine ⟨end_ atD, fun m hm => ?_⟩
    have atM : (ends p)[m]? = some front[m] := by
      rw [split, List.getElem?_append_left hm, List.getElem?_eq_getElem hm]
    rw [end_ atM, ← isSome_failure?, before front[m] (List.getElem_mem hm)]
    rfl
  refine ⟨e, ?_, ?_⟩
  · rw [first.unique noted]
    exact h.ended complete atD
  · rw [h.answer_eq, collect_eq_error_iff.mpr found]
    rfl

end WholeLedger

/-- In a complete pool that was not stopped, of whose jobs one breaks off, the answer is
the failure of the first troubled job, or what a job left behind that broke off, with
fewer troubled jobs before it than there are workers. -/
theorem Ledger.exists_end {work : Work σ ε α} {t : Tracking work} {p : Pool σ ε α}
    (h : Ledger t p) (complete : isComplete p = true) (someone : p.workers ≠ [])
    (unstopped : p.stop = false) {i j : Nat} {q : Payload} (bound : i < work.size)
    (broken : work.fetch i = .panicked q) (first : IsFirstTrouble work j) :
    (∃ e, work.fetch j = .error e ∧ p.answer = .error e) ∨
      ∃ k < work.size, ∃ q, work.fetch k = .panicked q ∧ p.answer = .panicked q ∧
        (List.range k).countP (troubled work) < p.workers.length := by
  cases left : p.payload? with
  | some q =>
      obtain ⟨answer, k, bound, broken, fewer⟩ := h.exists_broken_of_payload left
      exact Or.inr ⟨k, bound, q, broken, answer, fewer⟩
  | none =>
      have whole : WholeLedger t p := by
        refine ⟨h, ?_⟩
        rwa [payload?_eq_head?, List.head?_eq_none_iff] at left
      exact Or.inl (whole.answer_of_failing complete
        (whole.exists_failing complete someone unstopped bound broken) first)

end Pool
end RuncardReview
