import RuncardReview.Proofs.PoolSteps

/-!
# The ledger of a pool

Every job number below the next one is in the hands of exactly one worker: it is
claimed, or being worked at, or noted; or it is lost, as its job broke off at the
fetch and took a worker away.  This module keeps that account along a run,
together with what is known of each job on its way from the fetch to the note.
What is known is a parameter, a `Tracking`: a property of the shared state and a
property of what is left of each job, both kept by serving.

A worker that notes a failure leaves, and so does one that is taken away.  Each
worker has therefore met at most one job whose fetch did not succeed.

**Results.**
* `Ledger.move`, `Ledger.run`: the ledger is kept by a move and by a run.
* `Ledger.whole`: a pool that has lost no worker holds every number.
* `takenBy_run`: the numbers that were fetched in a run are those that the workers
  are working at or have noted, each as often.
-/

namespace RuncardReview
namespace Pool

open List (Perm perm_append_comm)
open scoped List

variable {σ ε α : Type}

/-- Fetching no job breaks off. -/
def Unbroken (work : Work σ ε α) : Prop :=
  ∀ i q, work.fetch i ≠ .panicked q

/-- A property of the shared state and one of what is left of each job, which
serving a query keeps. -/
structure Tracking (work : Work σ ε α) where
  holds : σ → Prop
  good : Nat → Inquiry α → Prop
  fetched : ∀ {i x}, work.fetch i = .ok x → good i x
  served : ∀ {i q next s}, holds s → good i (.ask q next) → good i (next (work.serve q s).1)
  kept : ∀ {q s}, holds s → holds (work.serve q s).2

/-! ## What is known of a job -/

namespace Tracking

variable {work : Work σ ε α}

/-- The end of a job: the error of its fetch, or a value of which the property is
known. -/
def Ended (t : Tracking work) (i : Nat) : Except ε α → Prop
  | .ok a => (∃ x, work.fetch i = .ok x) ∧ t.good i (.done a)
  | .error e => work.fetch i = .error e

/-- What is known of a worker from its phase.  One that has left has seen a flag
up or no job left. -/
def PhaseFits (t : Tracking work) (p : Pool σ ε α) : Phase ε α → Prop
  | .asking i x => (∃ y, work.fetch i = .ok y) ∧ t.good i x
  | .finished i e => t.Ended i e
  | .gone => p.stop = true ∨ p.failed = true ∨ work.size ≤ p.next
  | _ => True

theorem PhaseFits.later {t : Tracking work} {p q : Pool σ ε α} (later : Later p q)
    {phase : Phase ε α} (h : t.PhaseFits p phase) :
    t.PhaseFits q phase := by
  cases phase with
  | gone =>
      rcases h with h | h | h
      · exact Or.inl (later.stop h)
      · exact Or.inr (Or.inl (later.failed h))
      · exact Or.inr (Or.inr (Nat.le_trans h later.next))
  | _ => exact h

theorem phaseFits_actAs {t : Tracking work} {p : Pool σ ε α} {w : Worker ε α}
    (holds : t.holds p.shared) (h : t.PhaseFits p w.phase) :
    t.PhaseFits (actAs work p w).1 (actAs work p w).2.phase := by
  obtain ⟨phase, ends⟩ := w
  cases phase with
  | ready =>
      cases hs : p.stop <;> cases hf : p.failed <;> simp [actAs, PhaseFits, hs, hf]
  | cleared =>
      by_cases hn : p.next < work.size
      · simp [actAs, PhaseFits, hn]
      · simp only [actAs, if_neg hn, PhaseFits]
        exact Or.inr (Or.inr (by omega))
  | claimed i =>
      cases hf : work.fetch i with
      | ok x =>
          simp only [actAs, Pool.fetched, hf, PhaseFits]
          exact ⟨⟨x, rfl⟩, t.fetched hf⟩
      | error e =>
          simp only [actAs, Pool.fetched, hf, PhaseFits, Ended]
      | panicked q =>
          simp only [actAs, Pool.fetched, hf, PhaseFits]
  | asking i rest =>
      cases rest with
      | done a => exact h
      | ask q next => exact ⟨h.1, t.served holds h.2⟩
  | finished i e => trivial
  | gone => exact h
  | died q => trivial

theorem holds_actAs {t : Tracking work} {p : Pool σ ε α} (w : Worker ε α)
    (holds : t.holds p.shared) :
    t.holds (actAs work p w).1.shared := by
  obtain ⟨phase, ends⟩ := w
  cases phase with
  | ready =>
      simp only [actAs]
      split <;> exact holds
  | asking i rest =>
      cases rest with
      | done a => exact holds
      | ask q next => exact t.kept holds
  | _ => exact holds

end Tracking

/-! ## Troubled jobs -/

/-- Fetching the job does not succeed. -/
def troubled (work : Work σ ε α) (i : Nat) : Bool :=
  match work.fetch i with
  | .ok _ => false
  | _ => true

theorem Tracking.Ended.troubled_eq {work : Work σ ε α} {t : Tracking work} {i : Nat}
    {e : Except ε α} (h : t.Ended i e) :
    troubled work i = isFailure e := by
  cases e with
  | ok a =>
      obtain ⟨⟨x, hx⟩, -⟩ := h
      simp only [troubled, hx, isFailure]
  | error e =>
      have failing : work.fetch i = .error e := h
      simp only [troubled, failing, isFailure]

/-- How many troubled jobs a worker has noted. -/
def troubles (work : Work σ ε α) (w : Worker ε α) : Nat :=
  (w.noted.map Prod.fst).countP (troubled work)

/-- A worker has noted at most one troubled job, and if it has, then the failure flag
is up and it takes no other. -/
structure Wary (work : Work σ ε α) (p : Pool σ ε α) (w : Worker ε α) : Prop where
  once : troubles work w ≤ 1
  leaves : troubles work w ≠ 0 → p.failed = true ∧ (w.phase = .ready ∨ w.phase = .gone)

namespace Wary

variable {work : Work σ ε α} {p : Pool σ ε α} {w : Worker ε α}

theorem of_untroubled (none : troubles work w = 0) :
    Wary work p w :=
  ⟨by omega, fun some => absurd none some⟩

/-- A worker that takes jobs has noted no troubled one. -/
theorem untroubled (h : Wary work p w) (ready : w.phase ≠ .ready) (gone : w.phase ≠ .gone) :
    troubles work w = 0 :=
  Decidable.byContradiction fun some => (h.leaves some).2.elim ready gone

theorem later {q : Pool σ ε α} (later : Later p q) (h : Wary work p w) :
    Wary work q w :=
  ⟨h.once, fun some => ⟨later.failed (h.leaves some).1, (h.leaves some).2⟩⟩

theorem actAs {t : Tracking work} (fits : t.PhaseFits p w.phase) (h : Wary work p w) :
    Wary work (actAs work p w).1 (actAs work p w).2 := by
  obtain ⟨phase, ends⟩ := w
  cases phase with
  | ready =>
      by_cases none : troubles work ⟨.ready, ends⟩ = 0
      · simp only [Pool.actAs]
        split <;> exact of_untroubled none
      · -- It sees the flag that its failure has put up.
        have up : p.failed = true := (h.leaves none).1
        simp only [Pool.actAs, up, Bool.or_true, if_pos]
        exact ⟨h.once, fun _ => ⟨up, Or.inr rfl⟩⟩
  | finished i e =>
      have before : troubles work ⟨.finished i e, ends⟩ = 0 := h.untroubled (by simp) (by simp)
      have after : troubles work ⟨.ready, ends ++ [(i, e)]⟩ = if isFailure e then 1 else 0 := by
        have end_ : troubled work i = isFailure e := Tracking.Ended.troubled_eq fits
        simp only [troubles] at before
        simp [troubles, before, List.countP_singleton, end_]
      simp only [Pool.actAs]
      refine ⟨by rw [after]; split <;> omega, fun some => ⟨?_, Or.inl rfl⟩⟩
      cases failing : isFailure e with
      | true => exact Bool.or_true _
      | false => simp [after, failing] at some
  | gone => exact h
  | cleared => exact of_untroubled (h.untroubled (by simp) (by simp))
  | claimed i => exact of_untroubled (h.untroubled (by simp) (by simp))
  | asking i rest =>
      cases rest <;> exact of_untroubled (h.untroubled (by simp) (by simp))
  | died q => exact of_untroubled (h.untroubled (by simp) (by simp))

/-- With what it holds and what took it away, a worker has met at most one troubled
job. -/
theorem countP_held_le (h : Wary work p w) :
    (held w).countP (troubled work) + (remains w.phase).length ≤ 1 := by
  have noted : (held w).countP (troubled work) =
      troubles work w + (inWork w.phase ++ unfetched w.phase).countP (troubled work) := by
    simp only [held, taken, troubles, List.countP_append, Nat.add_assoc]
  have inHand : ∀ i, [i].countP (troubled work) ≤ 1 := fun i => List.countP_le_length
  rw [noted]
  obtain ⟨phase, ends⟩ := w
  cases phase with
  | ready => exact h.once
  | gone => exact h.once
  | cleared => exact h.once
  | claimed i =>
      rw [h.untroubled (by simp) (by simp), Nat.zero_add]
      exact inHand i
  | asking i rest =>
      rw [h.untroubled (by simp) (by simp), Nat.zero_add]
      exact inHand i
  | finished i e =>
      rw [h.untroubled (by simp) (by simp), Nat.zero_add]
      exact inHand i
  | died q =>
      rw [h.untroubled (by simp) (by simp)]
      exact Nat.le_refl 1

end Wary

/-! ## The ledger -/

/-- What is known of one worker: its phase and the ends it has noted are as tracked, and
it is wary of troubled jobs. -/
structure Trusty {work : Work σ ε α} (t : Tracking work) (p : Pool σ ε α) (w : Worker ε α) :
    Prop where
  phase : t.PhaseFits p w.phase
  noted : ∀ x ∈ w.noted, t.Ended x.1 x.2
  wary : Wary work p w

namespace Trusty

variable {work : Work σ ε α} {t : Tracking work} {p : Pool σ ε α} {w : Worker ε α}

theorem later {q : Pool σ ε α} (later : Later p q) (h : Trusty t p w) :
    Trusty t q w :=
  ⟨h.phase.later later, h.noted, h.wary.later later⟩

theorem actAs (holds : t.holds p.shared) (h : Trusty t p w) :
    Trusty t (actAs work p w).1 (actAs work p w).2 := by
  refine ⟨Tracking.phaseFits_actAs holds h.phase, fun x hx => ?_, h.wary.actAs h.phase⟩
  rcases mem_noted_actAs hx with hx | hx
  · exact h.noted x hx
  · have fits := h.phase
    rw [hx] at fits
    exact fits

end Trusty

/-- The account of a pool: each number issued is held once or lost, the lost ones are
those whose jobs broke off, the state and the workers are as known, and the failure
flag is up only if a failure was noted. -/
structure Ledger {work : Work σ ε α} (t : Tracking work) (p : Pool σ ε α) : Prop where
  account : ∃ lost : List Nat, heldBy p ++ lost ~ issued work p ∧
    lost.map work.fetch ~ (remainsBy p).map .panicked
  shared : t.holds p.shared
  workers : ∀ w ∈ p.workers, Trusty t p w
  failure : p.failed = true → ∃ w ∈ p.workers, ∃ x ∈ w.noted, isFailure x.2 = true

namespace Ledger

variable {work : Work σ ε α} {t : Tracking work}

theorem start (t : Tracking work) (workers : Nat) (stop : Bool) {s : σ} (holds : t.holds s) :
    Ledger t (Pool.start workers stop s) where
  account := by
    have nothing : ∀ {β : Type} (f : Worker ε α → List β), f ⟨.ready, []⟩ = [] →
        (List.replicate workers (⟨.ready, []⟩ : Worker ε α)).flatMap f = [] := by
      intro β f none
      refine List.flatMap_eq_nil_iff.mpr fun w hw => ?_
      rw [List.eq_of_mem_replicate hw, none]
    refine ⟨[], ?_, ?_⟩
    · rw [heldBy, Pool.start, nothing held rfl, issued, Nat.zero_min]
      rfl
    · rw [remainsBy, Pool.start, nothing (fun w => remains w.phase) rfl]
      rfl
  shared := holds
  workers := fun w hw => by
    rw [List.eq_of_mem_replicate hw]
    exact ⟨trivial, List.forall_mem_nil _, .of_untroubled rfl⟩
  failure := fun h => by cases h

theorem act {p : Pool σ ε α} (h : Ledger t p) (n : Nat) :
    Ledger t (Pool.act work n p) := by
  cases atN : p.workers[n]? with
  | none =>
      rw [act_of_none work atN]
      exact h
  | some w =>
  obtain ⟨front, back, split, next⟩ := act_split work atN
  have mem_split : ∀ {v}, v ∈ p.workers ↔ v ∈ front ∨ v = w ∨ v ∈ back := by
    simp [split]
  rw [next]
  constructor
  case account =>
    obtain ⟨lost, account, ended⟩ := h.account
    refine ⟨lost ++ lostNumber work w.phase, ?_, ?_⟩
    · calc (front ++ (Pool.actAs work p w).2 :: back).flatMap held ++
            (lost ++ lostNumber work w.phase)
        _ ~ (front ++ (Pool.actAs work p w).2 :: back).flatMap held ++
              lostNumber work w.phase ++ lost := by
            rw [← List.append_assoc]
            exact perm_append_right_comm _ _ _
        _ ~ (front ++ w :: back).flatMap held ++ newNumber work p w.phase ++ lost :=
            Perm.append_right _ (flatMap_split_perm (held_actAs work p w) front back)
        _ ~ heldBy p ++ lost ++ newNumber work p w.phase := by
            rw [heldBy, split]
            exact perm_append_right_comm _ _ _
        _ ~ issued work p ++ newNumber work p w.phase := Perm.append_right _ account
        _ = issued work (Pool.actAs work p w).1 := (issued_actAs work p w).symm
    · have step : (remains (Pool.actAs work p w).2.phase).map Outcome.panicked ++ [] ~
          (remains w.phase).map Outcome.panicked ++ (lostNumber work w.phase).map work.fetch := by
        rw [List.append_nil, remains_actAs]
      have left := flatMap_split_perm (f := fun w => (remains w.phase).map Outcome.panicked)
        step front back
      simp only [remainsBy, List.map_append, List.map_flatMap, List.append_nil] at left ended ⊢
      rw [split] at ended
      exact (Perm.append_right _ ended).trans left.symm
  case shared => exact Tracking.holds_actAs w h.shared
  case workers =>
    intro v hv
    have placed : Later (Pool.actAs work p w).1 { (Pool.actAs work p w).1 with
        workers := front ++ (Pool.actAs work p w).2 :: back } :=
      ⟨id, id, Nat.le_refl _⟩
    have later := (later_actAs work p w).trans placed
    rcases List.mem_append.mp hv with hv | hv
    · exact (h.workers v (mem_split.mpr (.inl hv))).later later
    rcases List.mem_cons.mp hv with rfl | hv
    · exact ((h.workers w (mem_split.mpr (.inr (.inl rfl)))).actAs h.shared).later placed
    · exact (h.workers v (mem_split.mpr (.inr (.inr hv)))).later later
  case failure =>
    intro up
    rcases failed_actAs up with up | ⟨x, hx, failing⟩
    · obtain ⟨v, hv, x, hx, failing⟩ := h.failure up
      rw [split] at hv
      rcases List.mem_append.mp hv with hv | hv
      · exact ⟨v, List.mem_append_left _ hv, x, hx, failing⟩
      rcases List.mem_cons.mp hv with rfl | hv
      · exact ⟨_, List.mem_append_right _ List.mem_cons_self, x,
          mem_noted_actAs_of_mem hx, failing⟩
      · exact ⟨v, List.mem_append_right _ (List.mem_cons_of_mem _ hv), x, hx, failing⟩
    · exact ⟨_, List.mem_append_right _ List.mem_cons_self, x, hx, failing⟩

theorem move {p : Pool σ ε α} (h : Ledger t p) (m : Move) :
    Ledger t (Pool.move work p m) := by
  cases m with
  | step n => exact h.act n
  | stop =>
      have later : Later p (Pool.move work p .stop) := ⟨fun _ => rfl, id, Nat.le_refl _⟩
      exact ⟨h.account, h.shared, fun w hw => (h.workers w hw).later later, h.failure⟩

theorem run (moves : List Move) :
    ∀ {p : Pool σ ε α}, Ledger t p → Ledger t (Pool.run work moves p) := by
  induction moves with
  | nil =>
      intro p h
      exact h
  | cons m moves ih =>
      intro p h
      exact ih (h.move m)

/-- What is left behind was left by a job that broke off. -/
theorem exists_broken {p : Pool σ ε α} (h : Ledger t p) {q : Payload} (left : q ∈ remainsBy p) :
    ∃ i ∈ issued work p, work.fetch i = .panicked q := by
  obtain ⟨lost, account, ended⟩ := h.account
  obtain ⟨i, member, broken⟩ := List.mem_map.mp (ended.mem_iff.mpr (List.mem_map_of_mem left))
  exact ⟨i, account.mem_iff.mp (List.mem_append_right _ member), broken⟩

/-- There are no more troubled jobs among those issued than there are workers. -/
theorem countP_issued_le {p : Pool σ ε α} (h : Ledger t p) :
    (issued work p).countP (troubled work) ≤ p.workers.length := by
  obtain ⟨lost, account, ended⟩ := h.account
  have left : lost.length = (remainsBy p).length := by
    simpa only [List.length_map] using ended.length_eq
  have each : ∀ ws : List (Worker ε α), (∀ w ∈ ws, Wary work p w) →
      (ws.flatMap Pool.held).countP (troubled work) +
        (ws.flatMap fun w => remains w.phase).length ≤ ws.length := by
    intro ws wary
    induction ws with
    | nil => exact Nat.le_refl 0
    | cons w ws ih =>
        have first := (wary w List.mem_cons_self).countP_held_le
        have rest := ih fun v hv => wary v (List.mem_cons_of_mem w hv)
        simp only [List.flatMap_cons, List.countP_append, List.length_append, List.length_cons]
        omega
  calc (issued work p).countP (troubled work)
    _ = (heldBy p).countP (troubled work) + lost.countP (troubled work) := by
        rw [← account.countP_eq, List.countP_append]
    _ ≤ (heldBy p).countP (troubled work) + lost.length :=
        Nat.add_le_add_left List.countP_le_length _
    _ = (heldBy p).countP (troubled work) + (remainsBy p).length := by rw [left]
    _ ≤ p.workers.length := each p.workers fun w hw => (h.workers w hw).wary

end Ledger

/-- The account of a pool that has lost no worker. -/
structure WholeLedger {work : Work σ ε α} (t : Tracking work) (p : Pool σ ε α) : Prop
    extends Ledger t p where
  whole : remainsBy p = []

namespace WholeLedger

variable {work : Work σ ε α} {t : Tracking work} {p : Pool σ ε α}

/-- Each number issued is held once. -/
theorem held (h : WholeLedger t p) :
    heldBy p ~ issued work p := by
  obtain ⟨lost, account, ended⟩ := h.account
  rw [h.whole, List.map_nil, List.perm_nil, List.map_eq_nil_iff] at ended
  rwa [ended, List.append_nil] at account

end WholeLedger

/-- Where no job breaks off, no worker is lost. -/
theorem Ledger.whole {work : Work σ ε α} {t : Tracking work} {p : Pool σ ε α}
    (unbroken : Unbroken work) (h : Ledger t p) :
    WholeLedger t p := by
  refine ⟨h, List.eq_nil_iff_forall_not_mem.mpr fun q left => ?_⟩
  obtain ⟨i, -, broken⟩ := h.exists_broken left
  exact unbroken i q broken

/-! ## The fetches of a run -/

/-- The number whose job a move fetches. -/
def fetchedNow (p : Pool σ ε α) : Move → List Nat
  | .step n => (p.workers[n]?).elim [] fun w => unfetched w.phase
  | .stop => []

/-- The numbers whose jobs a run fetches, in the order of the fetches. -/
def fetches (work : Work σ ε α) : List Move → Pool σ ε α → List Nat
  | [], _ => []
  | m :: moves, p => fetchedNow p m ++ fetches work moves (move work p m)

theorem taken_actAs {work : Work σ ε α} (unbroken : Unbroken work) (p : Pool σ ε α)
    (w : Worker ε α) :
    taken (actAs work p w).2 ~ taken w ++ unfetched w.phase := by
  obtain ⟨phase, ends⟩ := w
  cases phase with
  | ready =>
      simp only [actAs]
      split <;> simp [taken, inWork, unfetched]
  | cleared =>
      by_cases hn : p.next < work.size <;> simp [actAs, taken, inWork, unfetched, hn]
  | claimed i =>
      cases hf : work.fetch i with
      | panicked q => exact absurd hf (unbroken i q)
      | _ => simp [actAs, fetched, hf, taken, inWork, unfetched]
  | asking i rest =>
      cases rest <;> simp [actAs, taken, inWork, unfetched]
  | _ => simp [actAs, taken, inWork, unfetched]

theorem takenBy_move {work : Work σ ε α} (unbroken : Unbroken work) (p : Pool σ ε α)
    (m : Move) :
    takenBy (move work p m) ~ takenBy p ++ fetchedNow p m := by
  cases m with
  | stop => simp [move, takenBy, fetchedNow]
  | step n =>
      simp only [move, fetchedNow]
      cases atN : p.workers[n]? with
      | none => simp [act_of_none work atN]
      | some w =>
          obtain ⟨front, back, split, next⟩ := act_split work atN
          have step : taken (actAs work p w).2 ++ [] ~ taken w ++ unfetched w.phase := by
            rw [List.append_nil]
            exact taken_actAs unbroken p w
          have gain := flatMap_split_perm step front back
          rw [List.append_nil] at gain
          rw [next, takenBy, takenBy, split]
          exact gain

theorem takenBy_run {work : Work σ ε α} (unbroken : Unbroken work) (moves : List Move) :
    ∀ p : Pool σ ε α, takenBy (run work moves p) ~ takenBy p ++ fetches work moves p := by
  induction moves with
  | nil =>
      intro p
      simp [run, fetches]
  | cons m moves ih =>
      intro p
      calc takenBy (run work moves (move work p m))
        _ ~ takenBy (move work p m) ++ fetches work moves (move work p m) := ih _
        _ ~ (takenBy p ++ fetchedNow p m) ++ fetches work moves (move work p m) :=
            Perm.append_right _ (takenBy_move unbroken p m)
        _ = takenBy p ++ fetches work (m :: moves) p := by
            rw [List.append_assoc, fetches]

end Pool
end RuncardReview
