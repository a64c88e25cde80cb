import RuncardReview.Batch
import RuncardReview.Proofs.InquiryEnds
import RuncardReview.Proofs.MemoTransparency
import RuncardReview.Proofs.PoolAnswer
import RuncardReview.Proofs.PoolTurns

/-!
# The schedule of a batch does not matter

Some workers review the runcards of a batch in any order of steps, and the stop
flag may go up at any moment.  The runcards that were processed when all have left
form a front part of the batch, and the answer is that of the plain loop over this
part.  If the flag never went up, it is the answer of the plain loop over the whole
batch: a failure stops the others from taking new runcards, but all runcards before
it have been taken by then.

That the results themselves do not depend on the schedule needs a source that
takes tools as a set, since the memo does.  Over another source the runcard that
asks first settles the answer for all others that name the same tools.  Which
runcards are processed, which error is reported and which runcard each result
belongs to do not need it.

**Results.**
* `complete_run_answer`: what a complete run of any number of workers comes to.
* `review_eq_run`: the review itself is such a run.
* `answer_goes_by_schedule`: a source that looks at the order of tools.
-/

namespace RuncardReview
namespace Batch

open Pool (ends fetches)

/-! ## The plain loop -/

/-- The error of the first runcard whose conditions cannot be fetched. -/
def firstError? (backend : Backend) (runcards : List Runcard) : Option SourceError :=
  runcards.findSome? fun r =>
    match backend.conditions r.id with
    | .error e => some e
    | _ => none

/-- One runcard after the other, each by the source itself, up to the first whose
conditions cannot be fetched. -/
def plainLoop (registry : Registry) (backend : Backend) (groups : List Group) :
    List Runcard → Outcome SourceError (List RuncardResult)
  | [] => .ok []
  | r :: rs =>
      match job registry backend groups r with
      | .ok x =>
          match plainLoop registry backend groups rs with
          | .ok results => .ok (x.run backend.source :: results)
          | other => other
      | .error e => .error e
      | .panicked q => .panicked q

section Schedule

variable (registry : Registry) (backend : Backend) (groups : List Group)

/-- An end that fits a runcard: the error of its fetch, or a result that names it. -/
def Fits (r : Runcard) : Except SourceError RuncardResult → Prop
  | .ok result => (∃ x, job registry backend groups r = .ok x) ∧ result.runcard = r.id
  | .error e => job registry backend groups r = .error e

/-- The end of a runcard when every lookup is put to the source itself. -/
def Direct (r : Runcard) : Except SourceError RuncardResult → Prop
  | .ok result => ∃ x, job registry backend groups r = .ok x ∧ result = x.run backend.source
  | .error e => job registry backend groups r = .error e

variable {registry backend groups}

theorem job_eq_error_iff {r : Runcard} {e : SourceError} :
    job registry backend groups r = .error e ↔ backend.conditions r.id = .error e := by
  unfold job
  cases backend.conditions r.id <;> simp

theorem conditions_ok_of_job_ok {r : Runcard} {x : Inquiry RuncardResult}
    (h : job registry backend groups r = .ok x) :
    ∃ cs, backend.conditions r.id = .ok cs := by
  unfold job at h
  cases hc : backend.conditions r.id <;> simp [hc] at h ⊢

theorem findSome?_failure?_of_fits {rs : List Runcard}
    {es : List (Except SourceError RuncardResult)}
    (h : List.Forall₂ (Fits registry backend groups) rs es) :
    es.findSome? Pool.failure? = firstError? backend rs := by
  induction h with
  | nil => rfl
  | @cons r e rs es fits _ ih =>
      cases e with
      | ok result =>
          obtain ⟨⟨x, hx⟩, -⟩ := fits
          obtain ⟨cs, hcs⟩ := conditions_ok_of_job_ok hx
          simpa [firstError?, List.findSome?_cons, Pool.failure?, hcs] using ih
      | error e =>
          have hc : backend.conditions r.id = .error e := job_eq_error_iff.mp fits
          simp [firstError?, List.findSome?_cons, Pool.failure?, hc]

theorem runcards_of_fits {rs : List Runcard} {es : List (Except SourceError RuncardResult)}
    (h : List.Forall₂ (Fits registry backend groups) rs es) {results : List RuncardResult}
    (values : es = results.map .ok) :
    results.map RuncardResult.runcard = rs.map Runcard.id := by
  induction h generalizing results with
  | nil => cases results <;> simp_all
  | @cons r e rs es fits _ ih =>
      cases results with
      | nil => cases values
      | cons result results =>
          obtain ⟨rfl, rest⟩ := List.cons.inj values
          rw [List.map_cons, List.map_cons, fits.2, ih rest]

theorem plainLoop_of_direct {rs : List Runcard} {es : List (Except SourceError RuncardResult)}
    (h : List.Forall₂ (Direct registry backend groups) rs es) :
    plainLoop registry backend groups rs = Pool.settled (Pool.collect es) := by
  induction h with
  | nil => rfl
  | @cons r e rs es direct _ ih =>
      cases e with
      | ok result =>
          obtain ⟨x, hx, rfl⟩ := direct
          simp only [plainLoop, hx, ih, Pool.collect]
          cases Pool.collect es <;> rfl
      | error e =>
          have hj : job registry backend groups r = .error e := direct
          simp only [plainLoop, hj, Pool.collect, Pool.settled]

theorem plainLoop_append_of_error {rs : List Runcard} {e : SourceError}
    (h : plainLoop registry backend groups rs = .error e) (more : List Runcard) :
    plainLoop registry backend groups (rs ++ more) = .error e := by
  induction rs with
  | nil => cases h
  | cons r rs ih =>
      simp only [List.cons_append, plainLoop] at h ⊢
      cases hj : job registry backend groups r with
      | ok x =>
          simp only [hj] at h ⊢
          cases hl : plainLoop registry backend groups rs with
          | ok results => simp [hl] at h
          | error d =>
              simp only [hl] at h
              rw [ih (hl.trans h)]
          | panicked q => simp [hl] at h
      | error d => simpa only [hj] using h
      | panicked q => simp [hj] at h

/-! ## What is known of the jobs -/

variable {runcards : List Runcard} {during : String → Bool}

theorem fetch_eq_job {i : Nat} {r : Runcard} (h : runcards[i]? = some r) :
    (work registry backend groups runcards during).fetch i = job registry backend groups r := by
  simp only [work, h]

theorem unbroken_work
    (unbroken : ∀ r ∈ runcards, ∀ q, backend.conditions r.id ≠ .panicked q) :
    Pool.Unbroken (work registry backend groups runcards during) := by
  intro i q h
  cases hr : runcards[i]? with
  | none => simp [work, hr] at h
  | some r =>
      rw [fetch_eq_job hr] at h
      unfold job at h
      cases hc : backend.conditions r.id with
      | panicked q' => exact unbroken r (List.mem_of_getElem? hr) q' hc
      | ok cs => simp [hc] at h
      | error e => simp [hc] at h

variable (registry backend groups runcards during)

/-- Each job ends with a result that names its runcard. -/
def naming : Pool.Tracking (work registry backend groups runcards during) where
  holds _ := True
  good i x := ∀ r, runcards[i]? = some r → x.Ends fun result => result.runcard = r.id
  fetched := by
    intro i x hx r hr
    rw [fetch_eq_job hr] at hx
    unfold job at hx
    cases hc : backend.conditions r.id with
    | ok cs =>
        simp only [hc, Outcome.ok.injEq] at hx
        rw [← hx]
        exact Evaluation.ofRuncard_ends registry r cs groups
    | error e => simp [hc] at hx
    | panicked q => simp [hc] at hx
  served := by
    intro i q next m _ h r hr
    exact h r hr _
  kept := id

/-- What is left of each job ends, put to the source itself, as the job does. -/
def transparent (sets : backend.source.TakesSets) :
    Pool.Tracking (work registry backend groups runcards during) where
  holds := Memo.Faithful backend.source
  good i x := ∀ y, (work registry backend groups runcards during).fetch i = .ok y →
    x.run backend.source = y.run backend.source
  fetched := by
    intro i x hx y hy
    rw [Outcome.ok.inj (hx.symm.trans hy)]
  served := by
    intro i q next m faithful h y hy
    have answer : ((work registry backend groups runcards during).serve q m).1 =
        backend.source q := Memo.serve_answer faithful q
    rw [answer]
    exact h y hy
  kept := fun faithful => faithful.serve sets _

variable {registry backend groups runcards during}

theorem fits_of_ended {i : Nat} {r : Runcard} {e : Except SourceError RuncardResult}
    (hr : runcards[i]? = some r)
    (h : (naming registry backend groups runcards during).Ended i e) :
    Fits registry backend groups r e := by
  cases e with
  | ok result =>
      obtain ⟨⟨x, hx⟩, named⟩ := h
      exact ⟨⟨x, (fetch_eq_job hr).symm.trans hx⟩, named r hr⟩
  | error e => exact (fetch_eq_job hr).symm.trans h

theorem direct_of_ended {sets : backend.source.TakesSets} {i : Nat} {r : Runcard}
    {e : Except SourceError RuncardResult} (hr : runcards[i]? = some r)
    (h : (transparent registry backend groups runcards during sets).Ended i e) :
    Direct registry backend groups r e := by
  cases e with
  | ok result =>
      obtain ⟨⟨x, hx⟩, same⟩ := h
      exact ⟨x, (fetch_eq_job hr).symm.trans hx, same x hx⟩
  | error e => exact (fetch_eq_job hr).symm.trans h

/-- A relation that holds index by index holds along the front part of a row. -/
theorem forall₂_take {β : Type} {R : Runcard → β → Prop} {rs : List Runcard} {es : List β}
    (short : es.length ≤ rs.length)
    (h : ∀ (i : Nat) r e, rs[i]? = some r → es[i]? = some e → R r e) :
    List.Forall₂ R (rs.take es.length) es := by
  refine List.forall₂_iff_get.mpr ⟨by simp [short], fun i hr he => ?_⟩
  have hi : i < rs.length := by
    rw [List.length_take] at hr
    omega
  refine h i _ _ ?_ (List.getElem?_eq_getElem he)
  simp [List.getElem?_eq_getElem hi]

end Schedule

/-! ## Complete runs -/

/-- What a run comes to that has processed the first `k` runcards, when `fetched`
are the numbers whose conditions it fetched. -/
structure Account (registry : Registry) (backend : Backend) (groups : List Group)
    (runcards : List Runcard) (fetched : List Nat)
    (last : Pool Memo SourceError RuncardResult) (k : Nat) : Prop where
  /-- Each of these runcards was fetched once, and no other. -/
  fetchedOnce : fetched.Perm (List.range k)
  /-- Each of them was noted once, and no other. -/
  notedOnce : last.noted.map Prod.fst = List.range k
  /-- The first failure among them is the answer. -/
  failing : ∀ e, firstError? backend (runcards.take k) = some e → last.answer = .error e
  /-- Without a failure their results are the answer, in order. -/
  succeeding : firstError? backend (runcards.take k) = none →
    ∃ results, last.answer = .ok results ∧ ends last = results.map .ok ∧
      results.map RuncardResult.runcard = (runcards.take k).map Runcard.id
  /-- The answer is that of the plain loop over them. -/
  plain : backend.source.TakesSets →
    last.answer = plainLoop registry backend groups (runcards.take k)

section CompleteRuns

variable {registry : Registry} {backend : Backend} {groups : List Group}
variable {runcards : List Runcard} {during : String → Bool}
variable {workers : Nat} {atStart : Bool} {moves : List Move}

/-- The pool of a batch after some moves. -/
def poolAfter (registry : Registry) (backend : Backend) (groups : List Group)
    (runcards : List Runcard) (during : String → Bool) (workers : Nat) (atStart : Bool)
    (moves : List Move) : Pool Memo SourceError RuncardResult :=
  Pool.run (work registry backend groups runcards during) moves
    (Pool.start workers atStart Memo.empty)

theorem length_poolAfter :
    (poolAfter registry backend groups runcards during workers atStart moves).workers.length =
      workers := by
  rw [poolAfter, Pool.length_run, Pool.start, List.length_replicate]

theorem workers_poolAfter_ne_nil (someone : 1 ≤ workers) :
    (poolAfter registry backend groups runcards during workers atStart moves).workers ≠ [] :=
  List.ne_nil_of_length_pos (length_poolAfter.symm ▸ someone)

variable (registry backend groups runcards during workers atStart moves) in
theorem ledger_poolAfter
    (unbroken : ∀ r ∈ runcards, ∀ q, backend.conditions r.id ≠ .panicked q)
    (t : Pool.Tracking (work registry backend groups runcards during))
    (holds : t.holds Memo.empty) :
    Pool.WholeLedger t (poolAfter registry backend groups runcards during workers atStart
      moves) :=
  ((Pool.Ledger.start t workers atStart holds).run moves).whole (unbroken_work unbroken)

theorem account_poolAfter
    (unbroken : ∀ r ∈ runcards, ∀ q, backend.conditions r.id ≠ .panicked q)
    (complete : (poolAfter registry backend groups runcards during workers atStart
      moves).isComplete = true) :
    Account registry backend groups runcards
      (fetches (work registry backend groups runcards during) moves
        (Pool.start workers atStart Memo.empty))
      (poolAfter registry backend groups runcards during workers atStart moves)
      (ends (poolAfter registry backend groups runcards during workers atStart moves)).length := by
  have named := ledger_poolAfter registry backend groups runcards during workers atStart moves
    unbroken (naming registry backend groups runcards during) trivial
  have short := named.length_ends_le complete
  have fits := forall₂_take short fun i r e hr he => fits_of_ended hr (named.ended complete he)
  have answer := named.answer_eq
  constructor
  case fetchedOnce =>
    exact Pool.fetches_perm (unbroken_work unbroken)
      (naming registry backend groups runcards during) trivial moves complete
  case notedOnce => exact named.noted_numbers complete
  case failing =>
    intro e he
    rw [← findSome?_failure?_of_fits fits, ← Pool.collect_eq_error_iff] at he
    rw [answer, he, Pool.settled]
  case succeeding =>
    intro none
    rw [← findSome?_failure?_of_fits fits] at none
    cases collected : Pool.collect (ends (poolAfter registry backend groups runcards during
        workers atStart moves)) with
    | error e =>
        rw [Pool.collect_eq_error_iff.mp collected] at none
        cases none
    | ok results =>
        have values := Pool.eq_map_ok_of_collect collected
        exact ⟨results, by rw [answer, collected, Pool.settled], values,
          runcards_of_fits fits values⟩
  case plain =>
    intro sets
    have tracked := ledger_poolAfter registry backend groups runcards during workers atStart
      moves unbroken (transparent registry backend groups runcards during sets)
      (Memo.faithful_empty _)
    have direct := forall₂_take short fun i r e hr he =>
      direct_of_ended hr (tracked.ended complete he)
    rw [answer, plainLoop_of_direct direct]

theorem take_eq_or_failing
    (unbroken : ∀ r ∈ runcards, ∀ q, backend.conditions r.id ≠ .panicked q)
    (someone : 1 ≤ workers)
    (complete : (poolAfter registry backend groups runcards during workers atStart
      moves).isComplete = true)
    (unstopped : (poolAfter registry backend groups runcards during workers atStart
      moves).stop = false) :
    (ends (poolAfter registry backend groups runcards during workers atStart moves)).length =
        runcards.length ∨
      ∃ e, firstError? backend (runcards.take (ends (poolAfter registry backend groups runcards
        during workers atStart moves)).length) = some e := by
  have named := ledger_poolAfter registry backend groups runcards during workers atStart moves
    unbroken (naming registry backend groups runcards during) trivial
  have short := named.length_ends_le complete
  have fits := forall₂_take short fun i r e hr he => fits_of_ended hr (named.ended complete he)
  rcases named.all_or_failure complete (workers_poolAfter_ne_nil someone) unstopped with
    all | failing
  · exact Or.inl all
  · right
    rw [← findSome?_failure?_of_fits fits]
    exact Pool.exists_findSome?_failure? failing

theorem firstError?_take_of_some {k : Nat} {e : SourceError}
    (h : firstError? backend (runcards.take k) = some e) :
    firstError? backend runcards = some e := by
  unfold firstError? at h ⊢
  rw [← List.take_append_drop k runcards, List.findSome?_append, h]
  rfl

/-- Unstopped workers over a source that takes tools as a set do what the plain loop
does. -/
theorem answer_eq_plainLoop
    (unbroken : ∀ r ∈ runcards, ∀ q, backend.conditions r.id ≠ .panicked q)
    (someone : 1 ≤ workers)
    (complete : (poolAfter registry backend groups runcards during workers atStart
      moves).isComplete = true)
    (unstopped : (poolAfter registry backend groups runcards during workers atStart
      moves).stop = false)
    (sets : backend.source.TakesSets) :
    (poolAfter registry backend groups runcards during workers atStart moves).answer =
      plainLoop registry backend groups runcards := by
  have account := account_poolAfter unbroken complete
  have answer := account.plain sets
  rcases take_eq_or_failing unbroken someone complete unstopped with all | ⟨e, failing⟩
  · rw [answer, all, List.take_length]
  · have plain := account.failing e failing
    rw [plain, ← List.take_append_drop (ends (poolAfter registry backend groups runcards
      during workers atStart moves)).length runcards]
    exact (plainLoop_append_of_error (answer.symm.trans plain) _).symm

end CompleteRuns

/-- What a complete run of any number of workers comes to, whatever the order of
their steps and whenever the stop flag goes up.  The flag is never lowered, so if it
is down in the end it never went up. -/
theorem complete_run_answer (registry : Registry) (backend : Backend) (groups : List Group)
    (runcards : List Runcard) (during : String → Bool) (workers : Nat) (atStart : Bool)
    (moves : List Move) (someone : 1 ≤ workers)
    (unbroken : ∀ r ∈ runcards, ∀ q, backend.conditions r.id ≠ .panicked q)
    (complete : (poolAfter registry backend groups runcards during workers atStart
      moves).isComplete = true) :
    ∃ k ≤ runcards.length,
      Account registry backend groups runcards
        (fetches (work registry backend groups runcards during) moves
          (Pool.start workers atStart Memo.empty))
        (poolAfter registry backend groups runcards during workers atStart moves) k ∧
      ((poolAfter registry backend groups runcards during workers atStart moves).stop = false →
        (k = runcards.length ∨ ∃ e, firstError? backend (runcards.take k) = some e) ∧
        firstError? backend (runcards.take k) = firstError? backend runcards ∧
        (backend.source.TakesSets →
          (poolAfter registry backend groups runcards during workers atStart moves).answer =
            plainLoop registry backend groups runcards)) := by
  have account := account_poolAfter unbroken complete
  have short : (ends (poolAfter registry backend groups runcards during workers atStart
      moves)).length ≤ runcards.length :=
    (ledger_poolAfter registry backend groups runcards during workers atStart moves
      unbroken (naming registry backend groups runcards during) trivial).length_ends_le complete
  refine ⟨_, short, account, fun unstopped => ?_⟩
  have reached := take_eq_or_failing unbroken someone complete unstopped
  refine ⟨reached, ?_, answer_eq_plainLoop unbroken someone complete unstopped⟩
  rcases reached with all | ⟨e, failing⟩
  · rw [all, List.take_length]
  · rw [failing, firstError?_take_of_some failing]

/-! ## Two runcards with the same tools -/

namespace Scheduled

def groups : List Group :=
  [⟨"G1", [Tool.anyChamber "T1"], [⟨"InhibitionCheckStatus", ["Prod"], none⟩]⟩]

def first : Runcard := { Runcard.ofId "RC-1" with part := some "TM1" }

def second : Runcard := { Runcard.ofId "RC-2" with part := some "TM2" }

/-- The two runcards name the tools in another order. -/
def records : Records :=
  { Records.empty with
    conditions := [("RC-1", ⟨"C1", "T1,T2", "R"⟩), ("RC-2", ⟨"C1", "T2,T1", "R"⟩)]
    inhibitions := [⟨"T1", "A", "N"⟩] }

/-- The conditions of the second runcard cannot be fetched. -/
def failing : Backend :=
  records.backend.withFaults
    (Entries.empty.insert "conditions:RC-2" (.refuse "connection reset"))

/-- The flag goes by the order in which the tools are named. -/
def byOrder : Backend :=
  { records.backend with
    source := fun
      | .inhibition tools _ =>
          .ok ([⟨"T1", "A", if tools = ["T1", "T2"] then "N" else "Y"⟩] : List InhibitionRecord)
      | q => .ok q.noAnswer }

/-- The steps of one worker. -/
def inTurn : List Move :=
  List.replicate 15 (.step 0)

/-- The first worker claims the first runcard, and before it goes on, the second worker is done with
the second one. -/
def secondAhead : List Move :=
  List.replicate 2 (.step 0) ++ List.replicate 12 (.step 1) ++ List.replicate 12 (.step 0)

def poolOf (backend : Backend) (runcards : List Runcard) (workers : Nat) (moves : List Move) :
    Pool Memo SourceError RuncardResult :=
  poolAfter Registry.builtin backend groups runcards (fun _ => false) workers false moves

/-- The lamps of an answer, runcard by runcard. -/
def lamps : Outcome SourceError (List RuncardResult) → Option (List (List Lamp))
  | .ok results =>
      some (results.map fun r => r.conditions.flatMap fun c => c.results.map Result.lamp)
  | _ => none

end Scheduled

open Scheduled

/-- Two workers, the second ahead of the first.  If the conditions of the second runcard cannot be
fetched, that is the answer.  Otherwise both runcards are reviewed, and the answer is that of the
plain loop, as records in memory take tools as a set. -/
theorem complete_run_answer_of_second_ahead :
    let broken := poolOf failing [first, second, Runcard.ofId "RC-3"] 2 secondAhead
    let whole := poolOf records.backend [first, second] 2 secondAhead
    (broken.isComplete = true ∧ broken.stop = false ∧
      broken.answer = .error ⟨"conditions", "connection reset"⟩) ∧
    (whole.isComplete = true ∧ whole.stop = false ∧ whole.noted.map Prod.fst = [0, 1] ∧
      (∃ results, whole.answer = .ok results ∧
        results.map RuncardResult.runcard = ["RC-1", "RC-2"]) ∧
      whole.answer = plainLoop Registry.builtin records.backend groups [first, second]) := by
  intro broken whole
  constructor
  · have complete : broken.isComplete = true := by decide +kernel
    have unstopped : broken.stop = false := by decide +kernel
    have fails : firstError? failing [first, second, Runcard.ofId "RC-3"] =
        some ⟨"conditions", "connection reset"⟩ := by
      decide +kernel
    have fetched : [first, second, Runcard.ofId "RC-3"].map (fun r => failing.conditions r.id) =
        [.ok [⟨"C1", "T1,T2", "R"⟩], .error ⟨"conditions", "connection reset"⟩, .ok []] := by
      decide +kernel
    have unbroken : ∀ o ∈ [first, second, Runcard.ofId "RC-3"].map
        (fun r => failing.conditions r.id), ∀ q, o ≠ .panicked q := by
      simp [fetched]
    rw [List.forall_mem_map] at unbroken
    obtain ⟨k, -, account, unhindered⟩ := complete_run_answer Registry.builtin failing groups
      [first, second, Runcard.ofId "RC-3"] (fun _ => false) 2 false secondAhead (by decide) unbroken
      complete
    obtain ⟨-, same, -⟩ := unhindered unstopped
    exact ⟨complete, unstopped, account.failing _ (same.trans fails)⟩
  · have complete : whole.isComplete = true := by decide +kernel
    have unstopped : whole.stop = false := by decide +kernel
    have served : firstError? records.backend [first, second] = none := rfl
    obtain ⟨k, -, account, unhindered⟩ := complete_run_answer Registry.builtin records.backend
      groups [first, second] (fun _ => false) 2 false secondAhead (by decide) (fun _ _ _ => nofun)
      complete
    obtain ⟨reached, same, plain⟩ := unhindered unstopped
    have none : firstError? records.backend ([first, second].take k) = none := same.trans served
    obtain rfl : k = 2 := reached.resolve_right fun ⟨e, fails⟩ => by
      rw [none] at fails
      cases fails
    obtain ⟨results, answer, -, names⟩ := account.succeeding none
    exact ⟨complete, unstopped, account.notedOnce, ⟨results, answer, names⟩,
      plain records.takesSets_source⟩

/-- A source that looks at the order of tools.  The answer to the order that is asked first is kept
for the other one, and which of them is first depends on the workers. -/
theorem answer_goes_by_schedule :
    let one := poolOf byOrder [first, second] 1 inTurn
    let two := poolOf byOrder [first, second] 2 secondAhead
    (∀ r ∈ [first, second], ∃ cs, byOrder.conditions r.id = .ok cs) ∧
      one.isComplete = true ∧ one.stop = false ∧ two.isComplete = true ∧ two.stop = false ∧
      lamps one.answer = some [[.caution], [.caution]] ∧
      lamps two.answer = some [[.pass], [.pass]] ∧ one.answer ≠ two.answer := by
  intro one two
  have yellow : lamps one.answer = some [[.caution], [.caution]] := by
    rw [Pool.answer, Pool.noted_of_ascending (by decide +kernel)]
    decide +kernel
  have green : lamps two.answer = some [[.pass], [.pass]] := by
    rw [Pool.answer, Pool.noted_of_ascending (by decide +kernel)]
    decide +kernel
  have ended : one.isComplete = true ∧ one.stop = false := by decide +kernel
  have ended' : two.isComplete = true ∧ two.stop = false := by decide +kernel
  refine ⟨fun _ _ => ⟨_, rfl⟩, ended.1, ended.2, ended'.1, ended'.2, yellow, green, fun same => ?_⟩
  rw [same, green] at yellow
  cases yellow

end Batch
end RuncardReview
