import RuncardReview.Proofs.BatchSchedule
import RuncardReview.Proofs.PoolLosses

/-!
# Fetches that break off in a batch

Fetching the conditions of a runcard may break off, which no part of the review
contains: the worker that fetched is lost, the others go on, and the batch breaks off
in the end.  With one worker this comes to the failure or the breakage of the first
runcard that cannot be served, as in the plain loop.  With more it need not: another
worker may have gone on to a later runcard, and its breakage then hides the failure of
the first one, or shows in place of its breakage.

The batch never succeeds, it reports no failure but that of the first runcard that
cannot be served, and it breaks off if that one does.  What it breaks off with comes
from a runcard that has fewer of its kind before it than there are workers.

**Results.**
* `broken_run_answer`: what a complete run comes to if a fetch breaks off.
* `breakage_moves`: two workers report something else than one.
-/

namespace RuncardReview
namespace Batch

open Pool (troubled IsFirstTrouble)

/-- The conditions of the runcard cannot be fetched. -/
def unserved (backend : Backend) (r : Runcard) : Bool :=
  match backend.conditions r.id with
  | .ok _ => false
  | _ => true

/-- The answer is the failure of a fetch, or it breaks off as the fetch does. -/
def PassesOn {α β : Type} (fetch : Outcome SourceError α) (answer : Outcome SourceError β) :
    Prop :=
  match fetch with
  | .ok _ => False
  | .error e => answer = .error e
  | .panicked q => answer = .panicked q

section Broken

variable {registry : Registry} {backend : Backend} {groups : List Group}
variable {runcards : List Runcard} {during : String → Bool}

theorem unserved_eq_false_iff {r : Runcard} :
    unserved backend r = false ↔ ∃ cs, backend.conditions r.id = .ok cs := by
  unfold unserved
  cases backend.conditions r.id <;> simp

theorem troubled_eq_unserved {i : Nat} {r : Runcard} (h : runcards[i]? = some r) :
    troubled (work registry backend groups runcards during) i = unserved backend r := by
  rw [troubled, fetch_eq_job h, job, unserved]
  cases backend.conditions r.id <;> rfl

theorem countP_range_eq : ∀ {k : Nat}, k ≤ runcards.length →
    (List.range k).countP (troubled (work registry backend groups runcards during)) =
      (runcards.take k).countP (unserved backend)
  | 0, _ => by simp
  | k + 1, h => by
      have atK : runcards[k]? = some runcards[k] := List.getElem?_eq_getElem h
      rw [List.range_succ, List.countP_append, countP_range_eq (Nat.le_of_succ_le h),
        List.take_add_one, List.countP_append, atK]
      simp [List.countP_singleton, troubled_eq_unserved atK]

theorem fetch_eq_panicked_iff {i : Nat} {r : Runcard} {q : Payload} (h : runcards[i]? = some r) :
    (work registry backend groups runcards during).fetch i = .panicked q ↔
      backend.conditions r.id = .panicked q := by
  rw [fetch_eq_job h, job]
  cases backend.conditions r.id <;> simp

theorem fetch_eq_error_iff {i : Nat} {r : Runcard} {e : SourceError} (h : runcards[i]? = some r) :
    (work registry backend groups runcards during).fetch i = .error e ↔
      backend.conditions r.id = .error e := by
  rw [fetch_eq_job h, job_eq_error_iff]

variable (registry groups during) in
/-- The first runcard that cannot be served is the first troubled job. -/
theorem exists_firstTrouble {r : Runcard} (member : r ∈ runcards)
    (here : unserved backend r = true) :
    ∃ front s back, runcards = front ++ s :: back ∧
      (∀ u ∈ front, ∃ cs, backend.conditions u.id = .ok cs) ∧
      IsFirstTrouble (work registry backend groups runcards during) front.length := by
  obtain ⟨s, found⟩ := Option.isSome_iff_exists.mp (List.find?_isSome.mpr ⟨r, member, here⟩)
  obtain ⟨bad, front, back, rfl, before⟩ := List.find?_eq_some_iff_append.mp found
  have served : ∀ u ∈ front, unserved backend u = false := by simpa using before
  refine ⟨front, s, back, rfl, fun u hu => unserved_eq_false_iff.mp (served u hu), ?_, ?_⟩
  · rw [troubled_eq_unserved (r := s) (by simp)]
    exact bad
  · intro i hi
    have atI : (front ++ s :: back)[i]? = some front[i] := by
      rw [List.getElem?_append_left hi, List.getElem?_eq_getElem hi]
    rw [troubled_eq_unserved atI]
    exact served front[i] (List.getElem_mem hi)

/-- The runcard whose fetch has broken off, and those in front of it. -/
theorem exists_split_of_broken {k : Nat} {q : Payload} (bound : k < runcards.length)
    (broken : (work registry backend groups runcards during).fetch k = .panicked q) :
    ∃ before s after, runcards = before ++ s :: after ∧ before.length = k ∧
      backend.conditions s.id = .panicked q ∧
      before.countP (unserved backend) = (List.range k).countP
        (troubled (work registry backend groups runcards during)) := by
  refine ⟨runcards.take k, runcards[k], runcards.drop (k + 1), ?_, ?_, ?_, ?_⟩
  · rw [List.getElem_cons_drop, List.take_append_drop]
  · rw [List.length_take, Nat.min_eq_left (Nat.le_of_lt bound)]
  · exact (fetch_eq_panicked_iff (List.getElem?_eq_getElem bound)).mp broken
  · exact (countP_range_eq (Nat.le_of_lt bound)).symm

end Broken

/-- What a complete run of any number of workers comes to if a fetch breaks off and the
stop flag never goes up.  The flag is never lowered, so if it is down in the end it never
went up. -/
theorem broken_run_answer (registry : Registry) (backend : Backend) (groups : List Group)
    (runcards : List Runcard) (during : String → Bool) (workers : Nat) (atStart : Bool)
    (moves : List Move) (someone : 1 ≤ workers)
    (broken : ∃ r ∈ runcards, ∃ q, backend.conditions r.id = .panicked q)
    (complete : (poolAfter registry backend groups runcards during workers atStart
      moves).isComplete = true)
    (unstopped : (poolAfter registry backend groups runcards during workers atStart
      moves).stop = false) :
    let answer := (poolAfter registry backend groups runcards during workers atStart
      moves).answer
    ∃ front r back, runcards = front ++ r :: back ∧
      (∀ s ∈ front, ∃ cs, backend.conditions s.id = .ok cs) ∧
      ((∃ e, backend.conditions r.id = .error e ∧ answer = .error e) ∨
        ∃ before s after q, runcards = before ++ s :: after ∧
          backend.conditions s.id = .panicked q ∧ answer = .panicked q ∧
          before.countP (unserved backend) < workers) ∧
      (workers = 1 → PassesOn (backend.conditions r.id) answer) := by
  intro answer
  obtain ⟨b, member, q₀, breaks⟩ := broken
  have unserved_b : unserved backend b = true := by simp only [unserved, breaks]
  obtain ⟨front, r, back, split, served, first⟩ :=
    exists_firstTrouble registry groups during member unserved_b
  have atR : runcards[front.length]? = some r := by simp [split]
  obtain ⟨i, bound, rfl⟩ := List.mem_iff_getElem.mp member
  have ledger : Pool.Ledger (naming registry backend groups runcards during)
      (poolAfter registry backend groups runcards during workers atStart moves) :=
    (Pool.Ledger.start _ workers atStart trivial).run moves
  refine ⟨front, r, back, split, served, ?_⟩
  rcases ledger.exists_end complete (workers_poolAfter_ne_nil someone) unstopped bound
    ((fetch_eq_panicked_iff (List.getElem?_eq_getElem bound)).mpr breaks) first with
    ⟨e, failing, ended⟩ | ⟨k, bound, q, broken, ended, fewer⟩
  · have failing := (fetch_eq_error_iff atR).mp failing
    exact ⟨Or.inl ⟨e, failing, ended⟩, fun _ => by rw [failing]; exact ended⟩
  · obtain ⟨before, s, after, cut, place, breaks, count⟩ := exists_split_of_broken bound broken
    rw [length_poolAfter] at fewer
    refine ⟨Or.inr ⟨before, s, after, q, cut, breaks, ended, by rwa [count]⟩, fun one => ?_⟩
    -- A single worker meets no other troubled job before.
    have here : troubled (work registry backend groups runcards during) k = true := by
      simp only [troubled, broken]
    have same := first.unique (Pool.isFirstTrouble_of_countP_eq_zero (by omega) here)
    obtain rfl : r = s := by
      rw [same, ← place, cut] at atR
      simpa using atR.symm
    rw [breaks]
    exact ended

/-! ## Three runcards and two workers -/

namespace Losses

def runcards : List Runcard :=
  [Runcard.ofId "RC-1", Runcard.ofId "RC-2", Runcard.ofId "RC-3"]

/-- The fetches for the second and for the third runcard break off. -/
def breaksTwice : Backend :=
  Records.empty.backend.withFaults
    (Entries.ofList [("conditions:RC-2", .breakOff "lost"), ("conditions:RC-3", .breakOff "late")])

/-- The fetch for the first runcard fails, and that for the second breaks off. -/
def failsThenBreaks : Backend :=
  Records.empty.backend.withFaults
    (Entries.ofList [("conditions:RC-1", .refuse "down"), ("conditions:RC-2", .breakOff "lost")])

/-- The pool of some workers that have taken fifteen steps each, in turn. -/
def poolOf (backend : Backend) (workers : Nat) : Pool Memo SourceError RuncardResult :=
  poolAfter Entries.empty backend [] runcards (fun _ => false) workers false
    (List.replicate 15 ((List.range workers).map Move.step)).flatten

/-- The answer of the review, in which the workers take turns. -/
def reviewBy (backend : Backend) (workers : Nat) : Outcome SourceError (List RuncardResult) :=
  (review Entries.empty backend [] runcards workers ⟨false, fun _ => false⟩).answer

theorem exists_broken_breaksTwice :
    ∃ r ∈ runcards, ∃ q, breaksTwice.conditions r.id = .panicked q :=
  ⟨Runcard.ofId "RC-2", by simp [runcards], .text "lost", by decide +kernel⟩

end Losses

open Losses

/-- Two fetches break off before two workers.  One of the two breakages shows. -/
theorem broken_run_answer_of_two_breakages :
    (poolOf breaksTwice 2).isComplete = true ∧ (poolOf breaksTwice 2).stop = false ∧
      ∃ front r back, runcards = front ++ r :: back ∧
        (∀ s ∈ front, ∃ cs, breaksTwice.conditions s.id = .ok cs) ∧
        ((∃ e, breaksTwice.conditions r.id = .error e ∧
            (poolOf breaksTwice 2).answer = .error e) ∨
          ∃ before s after q, runcards = before ++ s :: after ∧
            breaksTwice.conditions s.id = .panicked q ∧
            (poolOf breaksTwice 2).answer = .panicked q ∧
            before.countP (unserved breaksTwice) < 2) ∧
        (2 = 1 → PassesOn (breaksTwice.conditions r.id) (poolOf breaksTwice 2).answer) := by
  have complete : (poolOf breaksTwice 2).isComplete = true := by decide +kernel
  have unstopped : (poolOf breaksTwice 2).stop = false := by decide +kernel
  exact ⟨complete, unstopped, broken_run_answer Entries.empty breaksTwice [] runcards
    (fun _ => false) 2 false _ (by decide) exists_broken_breaksTwice complete unstopped⟩

/-- Two workers pass on another breakage than one worker, and where one worker passes on a
failure, two let a later breakage hide it. -/
theorem breakage_moves :
    ((∃ cs, breaksTwice.conditions "RC-1" = .ok cs) ∧
      breaksTwice.conditions "RC-2" = .panicked (.text "lost") ∧
      (poolOf breaksTwice 2).isComplete = true ∧ (poolOf breaksTwice 2).stop = false ∧
      PassesOn (breaksTwice.conditions "RC-2") (poolOf breaksTwice 1).answer ∧
      ¬PassesOn (breaksTwice.conditions "RC-2") (poolOf breaksTwice 2).answer ∧
      reviewBy breaksTwice 1 = .panicked (.text "lost") ∧
      reviewBy breaksTwice 2 = .panicked (.text "late")) ∧
    (failsThenBreaks.conditions "RC-1" = .error ⟨"conditions", "down"⟩ ∧
      failsThenBreaks.conditions "RC-2" = .panicked (.text "lost") ∧
      (poolOf failsThenBreaks 2).isComplete = true ∧ (poolOf failsThenBreaks 2).stop = false ∧
      PassesOn (failsThenBreaks.conditions "RC-1") (poolOf failsThenBreaks 1).answer ∧
      ¬PassesOn (failsThenBreaks.conditions "RC-1") (poolOf failsThenBreaks 2).answer) := by
  have lost : breaksTwice.conditions "RC-2" = .panicked (.text "lost") := by decide +kernel
  have down : failsThenBreaks.conditions "RC-1" = .error ⟨"conditions", "down"⟩ := by decide +kernel
  have first : (poolOf breaksTwice 1).answer = .panicked (.text "lost") := by decide +kernel
  have other : (poolOf breaksTwice 2).answer = .panicked (.text "late") := by decide +kernel
  have first' : (poolOf failsThenBreaks 1).answer = .error ⟨"conditions", "down"⟩ := by
    rw [Pool.answer, Pool.noted_of_ascending (by decide +kernel)]
    decide +kernel
  have other' : (poolOf failsThenBreaks 2).answer = .panicked (.text "lost") := by decide +kernel
  have complete : (poolOf breaksTwice 2).isComplete = true ∧ (poolOf breaksTwice 2).stop = false :=
    by decide +kernel
  have reviewed : reviewBy breaksTwice 1 = .panicked (.text "lost") ∧
      reviewBy breaksTwice 2 = .panicked (.text "late") := by
    decide +kernel
  have complete' : (poolOf failsThenBreaks 2).isComplete = true ∧
      (poolOf failsThenBreaks 2).stop = false := by
    decide +kernel
  refine ⟨⟨⟨[], by decide +kernel⟩, lost, complete.1, complete.2, ?_, ?_, reviewed⟩,
    down, by decide +kernel, complete'.1, complete'.2, ?_, ?_⟩
  · rw [lost, first, PassesOn]
  · rw [lost, other, PassesOn]
    simp
  · rw [down, first', PassesOn]
  · rw [down, other', PassesOn]
    simp

end Batch
end RuncardReview
