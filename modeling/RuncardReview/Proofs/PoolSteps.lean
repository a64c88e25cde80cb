import Mathlib.Data.List.Perm.Basic
import RuncardReview.Pool

/-!
# The steps of a pool

A step of one worker changes the flags, the next number, the shared state and that worker.  The
flags only go up and the next number only grows.  A number that is claimed comes into the hands
of the worker and stays there, at work and then noted, unless its job breaks off at the fetch:
then it is lost, and the worker with it.

**Results.**
* `act_split`: what a step of one worker does to the whole pool.
* `later_actAs`, `stop_run`: the flags.
* `held_actAs`, `remains_actAs`: what a worker holds, and what a lost one leaves behind.
* `mem_noted_actAs`, `failed_actAs`: what is noted.
-/

namespace RuncardReview
namespace Pool

open List (Perm perm_append_comm)
open scoped List

variable {σ ε α : Type}

/-! ## One step of one worker -/

theorem actAs_workers (work : Work σ ε α) (p : Pool σ ε α) (w : Worker ε α) :
    (actAs work p w).1.workers = p.workers := by
  obtain ⟨phase, ends⟩ := w
  cases phase with
  | ready =>
      simp only [actAs]
      split <;> rfl
  | asking i rest =>
      cases rest <;> rfl
  | _ => rfl

theorem act_of_none (work : Work σ ε α) {n : Nat} {p : Pool σ ε α}
    (h : p.workers[n]? = none) :
    act work n p = p := by
  simp [act, h]

/-- A step of one worker changes the flags, the next number and the shared state,
and that worker; the workers before and after it stay as they are. -/
theorem act_split (work : Work σ ε α) {n : Nat} {p : Pool σ ε α} {w : Worker ε α}
    (h : p.workers[n]? = some w) :
    ∃ front back, p.workers = front ++ w :: back ∧
      act work n p =
        { (actAs work p w).1 with workers := front ++ (actAs work p w).2 :: back } := by
  obtain ⟨hn, atN⟩ := List.getElem?_eq_some_iff.mp h
  refine ⟨p.workers.take n, p.workers.drop (n + 1), ?_, ?_⟩
  · rw [← atN, List.getElem_cons_drop, List.take_append_drop]
  · simp only [act, h, place, actAs_workers]
    rw [List.set_eq_take_append_cons_drop, if_pos hn]

theorem length_act (work : Work σ ε α) (n : Nat) (p : Pool σ ε α) :
    (act work n p).workers.length = p.workers.length := by
  cases atN : p.workers[n]? with
  | none => rw [act_of_none work atN]
  | some w =>
      obtain ⟨front, back, split, next⟩ := act_split work atN
      simp [next, split]

theorem length_run (work : Work σ ε α) (moves : List Move) :
    ∀ p : Pool σ ε α, (run work moves p).workers.length = p.workers.length := by
  induction moves with
  | nil =>
      intro p
      rfl
  | cons m moves ih =>
      intro p
      rw [run, List.foldl_cons, ← run, ih]
      cases m with
      | step n => exact length_act work n p
      | stop => rfl

theorem perm_append_right_comm {β : Type} (a b c : List β) :
    a ++ b ++ c ~ a ++ c ++ b := by
  simp only [List.append_assoc]
  exact Perm.append_left a perm_append_comm

/-- What a worker in the middle loses and gains, the whole row loses and gains. -/
theorem flatMap_split_perm {β : Type} {f : Worker ε α → List β} {v w : Worker ε α}
    {lost new : List β} (change : f v ++ lost ~ f w ++ new) (front back : List (Worker ε α)) :
    (front ++ v :: back).flatMap f ++ lost ~ (front ++ w :: back).flatMap f ++ new := by
  have inner : f v ++ back.flatMap f ++ lost ~ f w ++ back.flatMap f ++ new :=
    calc f v ++ back.flatMap f ++ lost
      _ ~ f v ++ lost ++ back.flatMap f := perm_append_right_comm _ _ _
      _ ~ f w ++ new ++ back.flatMap f := Perm.append_right _ change
      _ ~ f w ++ back.flatMap f ++ new := perm_append_right_comm _ _ _
  simpa only [List.flatMap_append, List.flatMap_cons, List.append_assoc] using
    Perm.append_left (front.flatMap f) inner

/-- The flags of a pool only go up and its next number only grows. -/
structure Later (p q : Pool σ ε α) : Prop where
  stop : p.stop = true → q.stop = true
  failed : p.failed = true → q.failed = true
  next : p.next ≤ q.next

theorem Later.refl (p : Pool σ ε α) :
    Later p p :=
  ⟨id, id, Nat.le_refl _⟩

theorem Later.trans {p q r : Pool σ ε α} (first : Later p q) (second : Later q r) :
    Later p r :=
  ⟨fun h => second.stop (first.stop h), fun h => second.failed (first.failed h),
    Nat.le_trans first.next second.next⟩

theorem later_actAs (work : Work σ ε α) (p : Pool σ ε α) (w : Worker ε α) :
    Later p (actAs work p w).1 := by
  obtain ⟨phase, ends⟩ := w
  cases phase with
  | ready =>
      simp only [actAs]
      split <;> exact Later.refl p
  | cleared =>
      exact ⟨id, id, Nat.le_succ _⟩
  | claimed i =>
      exact ⟨fun h => by simp [actAs, h], id, Nat.le_refl _⟩
  | asking i rest =>
      cases rest <;> exact ⟨id, id, Nat.le_refl _⟩
  | finished i e =>
      exact ⟨id, fun h => by simp [actAs, h], Nat.le_refl _⟩
  | gone => exact Later.refl p
  | died q => exact Later.refl p

/-- The number that a phase is about and that has been fetched. -/
def inWork : Phase ε α → List Nat
  | .asking i _ => [i]
  | .finished i _ => [i]
  | _ => []

/-- The number that a phase has claimed and not fetched. -/
def unfetched : Phase ε α → List Nat
  | .claimed i => [i]
  | _ => []

/-- The numbers that a worker has fetched, noted or not. -/
def taken (w : Worker ε α) : List Nat :=
  w.noted.map Prod.fst ++ inWork w.phase

/-- The numbers in the hands of a worker. -/
def held (w : Worker ε α) : List Nat :=
  taken w ++ unfetched w.phase

/-- The numbers in the hands of all workers. -/
def heldBy (p : Pool σ ε α) : List Nat :=
  p.workers.flatMap held

/-- The numbers that any worker has fetched. -/
def takenBy (p : Pool σ ε α) : List Nat :=
  p.workers.flatMap taken

/-- The numbers up to the next one, as far as there are jobs. -/
def issued (work : Work σ ε α) (p : Pool σ ε α) : List Nat :=
  List.range (min p.next work.size)

/-- The number that a worker in that phase claims next. -/
def newNumber (work : Work σ ε α) (p : Pool σ ε α) : Phase ε α → List Nat
  | .cleared => if p.next < work.size then [p.next] else []
  | _ => []

/-- The number that a worker in that phase loses in its next step, together with
itself. -/
def lostNumber (work : Work σ ε α) : Phase ε α → List Nat
  | .claimed i =>
      match work.fetch i with
      | .panicked _ => [i]
      | _ => []
  | _ => []

/-- What the job that took a worker away left behind. -/
def remains : Phase ε α → List Payload
  | .died q => [q]
  | _ => []

/-- What all jobs that broke off left behind, worker by worker. -/
def remainsBy (p : Pool σ ε α) : List Payload :=
  p.workers.flatMap fun w => remains w.phase

theorem payload?_eq_head? (p : Pool σ ε α) :
    p.payload? = (remainsBy p).head? := by
  rw [remainsBy, List.head?_flatMap, payload?]
  congr 1
  funext w
  cases w.phase <;> rfl

theorem held_actAs (work : Work σ ε α) (p : Pool σ ε α) (w : Worker ε α) :
    held (actAs work p w).2 ++ lostNumber work w.phase ~
      held w ++ newNumber work p w.phase := by
  obtain ⟨phase, ends⟩ := w
  cases phase with
  | ready =>
      simp only [actAs]
      split <;> simp [held, taken, inWork, unfetched, newNumber, lostNumber]
  | cleared =>
      by_cases hn : p.next < work.size <;>
        simp [actAs, held, taken, inWork, unfetched, newNumber, lostNumber, hn]
  | claimed i =>
      cases hf : work.fetch i <;>
        simp [actAs, fetched, hf, held, taken, inWork, unfetched, newNumber, lostNumber]
  | asking i rest =>
      cases rest <;> simp [actAs, held, taken, inWork, unfetched, newNumber, lostNumber]
  | _ => simp [actAs, held, taken, inWork, unfetched, newNumber, lostNumber]

/-- What is left behind in a step is the end of the fetch of the number that is lost. -/
theorem remains_actAs (work : Work σ ε α) (p : Pool σ ε α) (w : Worker ε α) :
    (remains (actAs work p w).2.phase).map Outcome.panicked =
      (remains w.phase).map Outcome.panicked ++ (lostNumber work w.phase).map work.fetch := by
  obtain ⟨phase, ends⟩ := w
  cases phase with
  | ready =>
      simp only [actAs]
      split <;> rfl
  | cleared =>
      by_cases hn : p.next < work.size <;> simp [actAs, remains, lostNumber, hn]
  | claimed i =>
      cases hf : work.fetch i <;> simp [actAs, fetched, remains, lostNumber, hf]
  | asking i rest =>
      cases rest <;> rfl
  | _ => simp [actAs, remains, lostNumber]

theorem issued_actAs (work : Work σ ε α) (p : Pool σ ε α) (w : Worker ε α) :
    issued work (actAs work p w).1 = issued work p ++ newNumber work p w.phase := by
  obtain ⟨phase, ends⟩ := w
  cases phase with
  | ready =>
      simp only [actAs]
      split <;> simp [issued, newNumber]
  | cleared =>
      by_cases hn : p.next < work.size
      · have before : min p.next work.size = p.next := Nat.min_eq_left (by omega)
        have after : min (p.next + 1) work.size = p.next + 1 := Nat.min_eq_left (by omega)
        simp only [actAs, if_pos hn, issued, newNumber, before, after, List.range_succ]
      · have before : min p.next work.size = work.size := Nat.min_eq_right (by omega)
        have after : min (p.next + 1) work.size = work.size := Nat.min_eq_right (by omega)
        simp [actAs, issued, newNumber, hn, before, after]
  | asking i rest =>
      cases rest <;> simp [actAs, issued, newNumber]
  | _ => simp [actAs, issued, newNumber]

/-! ## Notes -/

/-- A worker that acts keeps what it has noted. -/
theorem mem_noted_actAs_of_mem {work : Work σ ε α} {p : Pool σ ε α} {w : Worker ε α}
    {x : Nat × Except ε α} (h : x ∈ w.noted) :
    x ∈ (actAs work p w).2.noted := by
  obtain ⟨phase, ends⟩ := w
  cases phase with
  | ready =>
      simp only [actAs]
      split <;> exact h
  | asking i rest =>
      cases rest <;> exact h
  | finished i e => exact List.mem_append_left _ h
  | _ => exact h

/-- What a worker notes in a step is the job it had finished. -/
theorem mem_noted_actAs {work : Work σ ε α} {p : Pool σ ε α} {w : Worker ε α}
    {x : Nat × Except ε α} (h : x ∈ (actAs work p w).2.noted) :
    x ∈ w.noted ∨ w.phase = .finished x.1 x.2 := by
  obtain ⟨phase, ends⟩ := w
  cases phase with
  | ready =>
      simp only [actAs] at h
      split at h <;> exact Or.inl h
  | asking i rest =>
      cases rest <;> exact Or.inl h
  | finished i e =>
      rcases List.mem_append.mp h with h | h
      · exact Or.inl h
      · rw [List.mem_singleton.mp h]
        exact Or.inr rfl
  | _ => exact Or.inl h

/-- A step that puts the failure flag up notes a failure. -/
theorem failed_actAs {work : Work σ ε α} {p : Pool σ ε α} {w : Worker ε α}
    (h : (actAs work p w).1.failed = true) :
    p.failed = true ∨ ∃ x ∈ (actAs work p w).2.noted, isFailure x.2 = true := by
  obtain ⟨phase, ends⟩ := w
  cases phase with
  | ready =>
      simp only [actAs] at h
      split at h <;> exact Or.inl h
  | asking i rest =>
      cases rest <;> exact Or.inl h
  | finished i e =>
      simp only [actAs, Bool.or_eq_true] at h
      exact h.imp id fun he => ⟨(i, e), by simp [actAs], he⟩
  | _ => exact Or.inl h

end Pool
end RuncardReview
