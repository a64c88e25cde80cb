import RuncardReview.Proofs.SharingCells

/-!
# A shared cache is filled once for each key

Whatever callers do in whatever order, the first attempt for a key that succeeds is the
last one for that key.  Two things carry this.  The cell of a key never changes, so all
calls for a key meet at one cell; and an attempt begins only at an empty cell and keeps it
to itself until it ends.

What a step does is said once, by `Step`.  The invariant `Sound` ties the values in the
cells to the history, and each call to its cell.

**Results.**
* `Sound.step`, `Sound.run`: the invariant holds after a step and after a run.
* `run_fills_once`: attempts, answers, slots and size together.
-/

namespace RuncardReview

/-! ## What a step does -/

namespace Event

variable {κ ν ε : Type}

/-- An attempt for the key begins or succeeds. -/
def Fills (k : κ) : Event κ ν ε → Prop
  | began _ j => j = k
  | ended _ j o => j = k ∧ o.isOk = true

/-- The key for which an attempt succeeds. -/
def filled? : Event κ ν ε → Option κ
  | ended _ k (.ok _) => some k
  | _ => none

theorem filled?_eq_some_iff {e : Event κ ν ε} {k : κ} :
    e.filled? = some k ↔ ∃ n v, e = .ended n k (.ok v) := by
  cases e with
  | began n j => simp [filled?]
  | ended n j o => cases o <;> simp [filled?, and_comm]

end Event

namespace Sharing

variable {κ ν ε : Type} [DecidableEq κ]

/-- What the step of a call may be, the event that it notes, and the state after it. -/
inductive Step (n : Nat) (call : Call κ ν ε) (s : Sharing κ ν ε) :
    Option (Event κ ν ε) → Sharing κ ν ε → Prop
  | wait : Step n call s none s
  | found {i : Nat} (entered : call.stage = .entered)
      (slot : s.cache.slot? call.key = some i) :
      Step n call s none (s.advance n call (.holding i))
  | opened (entered : call.stage = .entered) (new : s.cache.slot? call.key = none) :
      Step n call s none
        ({ s with cache := s.cache.opened call.key }.advance n call
          (.holding s.cache.cells.length))
  | read {i : Nat} {v : ν} (holding : call.stage = .holding i)
      (cell : s.cache.cells[i]? = some (.filled v)) :
      Step n call s none (s.advance n call (.answered (.ok v)))
  | began {i : Nat} (holding : call.stage = .holding i)
      (cell : s.cache.cells[i]? = some .empty) :
      Step n call s (some (.began n call.key))
        (((s.put i (.running n)).note (.began n call.key)).advance n call (.attempting i))
  | filled {i : Nat} {v : ν} (attempting : call.stage = .attempting i)
      (ends : call.attempt = .ok v) :
      Step n call s (some (.ended n call.key (.ok v)))
        (((s.put i (.filled v)).note (.ended n call.key (.ok v))).advance n call (.holding i))
  | failed {i : Nat} {o : Outcome ε ν} (attempting : call.stage = .attempting i)
      (ends : call.attempt = o) (failure : o.isOk = false) :
      Step n call s (some (.ended n call.key o))
        (((s.put i .empty).note (.ended n call.key o)).advance n call (.answered o))

theorem exists_step (n : Nat) (call : Call κ ν ε) (s : Sharing κ ν ε) :
    ∃ e, Step n call s e (stepAs n call s) := by
  unfold stepAs
  split
  · rename_i entered
    split
    · rename_i slot
      exact ⟨_, .found entered slot⟩
    · rename_i new
      exact ⟨_, .opened entered new⟩
  · rename_i holding
    split
    · rename_i cell
      exact ⟨_, .read holding cell⟩
    · rename_i cell
      exact ⟨_, .began holding cell⟩
    · exact ⟨_, .wait⟩
  · rename_i attempting
    split
    · rename_i ends
      exact ⟨_, .filled attempting ends⟩
    · rename_i failure
      refine ⟨_, .failed attempting rfl ?_⟩
      cases ends : call.attempt with
      | ok v => exact absurd ends (failure v)
      | error e => rfl
      | panicked p => rfl
  · exact ⟨_, .wait⟩

section Steps

variable {n : Nat} {call : Call κ ν ε} {s t : Sharing κ ν ε} {e : Option (Event κ ν ε)}

theorem Step.history (step : Step n call s e t) :
    t.history = s.history ++ e.toList := by
  cases step <;> simp [advance, note, put]

theorem Step.calls (step : Step n call s e t) (called : s.calls[n]? = some call) :
    ∃ stage, t.calls = s.calls.set n { call with stage := stage } := by
  cases step with
  | wait =>
      obtain ⟨within, rfl⟩ := List.getElem?_eq_some_iff.mp called
      exact ⟨_, (List.set_getElem_self within).symm⟩
  | _ => exact ⟨_, rfl⟩

/-- The slot of a key is never another. -/
theorem Step.slot (step : Step n call s e t) {k : κ} {i : Nat}
    (slot : s.cache.slot? k = some i) :
    t.cache.slot? k = some i := by
  cases step with
  | opened => exact CellCache.slot?_opened_of_some slot _
  | _ => exact slot

end Steps

/-! ## What stays true -/

/-- What is true of the call of that number, where it stands. -/
def Stands (s : Sharing κ ν ε) (n : Nat) (call : Call κ ν ε) : Prop :=
  match call.stage with
  | .entered => True
  | .holding i => s.cache.slot? call.key = some i
  | .attempting i =>
      s.cache.slot? call.key = some i ∧ s.cache.cells[i]? = some (.running n)
  | .answered (.ok v) => s.cache.get? call.key = some v
  | .answered o => o = call.attempt ∧ .ended n call.key o ∈ s.history

/-- The values are those of the attempts that have succeeded, after which no attempt for
their key begins or succeeds; and the calls stand by their cells. -/
structure Sound (s : Sharing κ ν ε) : Prop where
  orderly : s.cache.Orderly
  kept : ∀ k v, s.cache.get? k = some v ↔ ∃ n, .ended n k (.ok v) ∈ s.history
  once : s.history.Pairwise fun e f => ∀ n k v, e = .ended n k (.ok v) → ¬f.Fills k
  stands : ∀ n call, s.calls[n]? = some call → s.Stands n call

theorem sound_start :
    (start : Sharing κ ν ε).Sound where
  orderly := CellCache.orderly_empty
  kept := by simp [start, CellCache.get?, CellCache.slot?, CellCache.empty]
  once := .nil
  stands := by simp [start]

theorem Sound.enter {s : Sharing κ ν ε} (sound : s.Sound) (key : κ) (attempt : Outcome ε ν) :
    (s.enter key attempt).Sound where
  orderly := sound.orderly
  kept := sound.kept
  once := sound.once
  stands := by
    intro n call called
    rw [Sharing.enter, List.getElem?_append] at called
    split at called
    · exact sound.stands n call called
    · obtain ⟨-, rfl⟩ := List.getElem?_eq_some_iff.mp called
      simp [Stands]

section Steps

variable {n : Nat} {call : Call κ ν ε} {s t : Sharing κ ν ε} {e : Option (Event κ ν ε)}

theorem Step.orderly (step : Step n call s e t) (orderly : s.cache.Orderly) :
    t.cache.Orderly := by
  cases step with
  | opened _ new => exact orderly.opened new
  | began | filled | failed => exact orderly.put _ _
  | _ => exact orderly

/-- A key has no value yet when an attempt for it begins, and none when it ends. -/
theorem Step.bare (step : Step n call s e t) (stands : s.Stands n call) {x : Event κ ν ε}
    (noted : x ∈ e) :
    s.cache.get? call.key = none := by
  cases step with
  | began holding cell =>
      simp only [Stands, holding] at stands
      exact CellCache.get?_of_bare stands cell rfl
  | filled attempting | failed attempting =>
      simp only [Stands, attempting] at stands
      exact CellCache.get?_of_bare stands.1 stands.2 rfl
  | _ => cases noted

theorem Step.key_of_fills (step : Step n call s e t) {x : Event κ ν ε} (noted : x ∈ e) {k : κ}
    (fills : x.Fills k) :
    call.key = k := by
  cases step with
  | began =>
      obtain rfl := Option.some.inj noted
      exact fills
  | filled | failed =>
      obtain rfl := Option.some.inj noted
      exact fills.1
  | _ => cases noted

/-- The values grow by what a successful attempt has come to. -/
theorem Step.get?_iff (step : Step n call s e t) (orderly : s.cache.Orderly)
    (stands : s.Stands n call) (k : κ) (v : ν) :
    t.cache.get? k = some v ↔
      s.cache.get? k = some v ∨ ∃ m, e = some (.ended m k (.ok v)) := by
  have grown : ∀ {i x cell}, x ∈ e → s.cache.slot? call.key = some i →
      ((s.cache.put i cell).get? k = some v ↔
        s.cache.get? k = some v ∨ (k = call.key ∧ cell.value? = some v)) := by
    intro i x cell noted slot
    rw [orderly.get?_put slot]
    split
    · rename_i same
      simp [same, step.bare stands noted]
    · rename_i other
      simp [other]
  -- Only an attempt that ends well adds a value; the new cell of a slot is empty.
  cases step with
  | wait | found | read => simp [advance]
  | opened => simp [advance, orderly.get?_opened]
  | began holding =>
      simp only [Stands, holding] at stands
      refine (grown rfl stands).trans (or_congr_right ?_)
      simp [Cell.value?]
  | filled attempting =>
      simp only [Stands, attempting] at stands
      refine (grown rfl stands.1).trans (or_congr_right ?_)
      simp [Cell.value?, eq_comm]
  | failed attempting ends failure =>
      simp only [Stands, attempting] at stands
      refine (grown rfl stands.1).trans (or_congr_right ?_)
      constructor
      · rintro ⟨-, none⟩
        cases none
      · rintro ⟨m, same⟩
        obtain ⟨-, -, rfl⟩ := Event.ended.inj (Option.some.inj same)
        cases failure

/-- Another call that attempts to fill a cell keeps it to itself. -/
theorem Step.running (step : Step n call s e t) (stands : s.Stands n call) {m i : Nat}
    (other : m ≠ n) (cell : s.cache.cells[i]? = some (.running m)) :
    t.cache.cells[i]? = some (.running m) := by
  have untouched : ∀ {j new old}, s.cache.cells[j]? = some old → old ≠ .running m →
      (s.cache.put j new).cells[i]? = some (.running m) := by
    intro j new old held differs
    have apart : j ≠ i := by
      rintro rfl
      exact differs (Option.some.inj (held.symm.trans cell))
    simpa [CellCache.put, apart] using cell
  cases step with
  | opened =>
      obtain ⟨within, -⟩ := List.getElem?_eq_some_iff.mp cell
      exact (List.getElem?_append_left within).trans cell
  | began holding empty => exact untouched empty (by simp)
  | filled attempting | failed attempting =>
      simp only [Stands, attempting] at stands
      exact untouched stands.2 (by simpa using other.symm)
  | _ => exact cell

theorem Step.stands_other (step : Step n call s e t) (orderly : s.cache.Orderly)
    (stands : s.Stands n call) {m : Nat} {called : Call κ ν ε} (other : m ≠ n)
    (before : s.Stands m called) :
    t.Stands m called := by
  unfold Stands at before ⊢
  split at before
  · trivial
  · exact step.slot before
  · exact ⟨step.slot before.1, step.running stands other before.2⟩
  · exact (step.get?_iff orderly stands _ _).mpr (.inl before)
  · exact ⟨before.1, step.history ▸ List.mem_append_left _ before.2⟩

omit [DecidableEq κ] in
theorem eq_of_advance {stage : Stage ε ν} {after : Call κ ν ε}
    (found : (s.advance n call stage).calls[n]? = some after) (within : n < s.calls.length) :
    { call with stage := stage } = after := by
  simpa [advance, within] using found

/-- After its step a call stands by its cell again. -/
theorem Step.stands_self (step : Step n call s e t) (orderly : s.cache.Orderly)
    (stands : s.Stands n call) (called : s.calls[n]? = some call) {after : Call κ ν ε}
    (found : t.calls[n]? = some after) :
    t.Stands n after := by
  obtain ⟨within, -⟩ := List.getElem?_eq_some_iff.mp called
  cases step with
  | wait =>
      obtain rfl := Option.some.inj (called.symm.trans found)
      exact stands
  | found entered slot =>
      obtain rfl := eq_of_advance found within
      exact slot
  | opened entered new =>
      obtain rfl := eq_of_advance found within
      exact CellCache.slot?_opened_self new
  | read holding cell =>
      obtain rfl := eq_of_advance found within
      simp only [Stands, holding] at stands
      simp [Stands, advance, CellCache.get?, stands, CellCache.valueAt?, cell, Cell.value?]
  | began holding cell =>
      obtain rfl := eq_of_advance found within
      simp only [Stands, holding] at stands
      refine ⟨stands, ?_⟩
      simp [advance, note, put, CellCache.put, orderly.slot_lt stands]
  | filled attempting =>
      obtain rfl := eq_of_advance found within
      simp only [Stands, attempting] at stands
      exact stands.1
  | @failed i o attempting ends failure =>
      obtain rfl := eq_of_advance found within
      cases o with
      | ok v => cases failure
      | error x => exact ⟨ends.symm, List.mem_append_right _ (List.mem_singleton_self _)⟩
      | panicked p => exact ⟨ends.symm, List.mem_append_right _ (List.mem_singleton_self _)⟩

theorem Sound.step {s : Sharing κ ν ε} (sound : s.Sound) (n : Nat) :
    (s.step n).Sound := by
  unfold Sharing.step
  split
  · exact sound
  · rename_i call called
    obtain ⟨e, step⟩ := exists_step n call s
    have stands := sound.stands n call called
    refine ⟨step.orderly sound.orderly, ?kept, ?once, ?stands⟩
    case kept =>
      intro k v
      rw [step.get?_iff sound.orderly stands, sound.kept, step.history, ← exists_or]
      simp
    case once =>
      rw [step.history]
      refine List.pairwise_append.mpr ⟨sound.once, ?_, ?_⟩
      · cases e <;> simp
      · -- Nothing can be noted for a key that has its value.
        rintro _ old x new m k v rfl fills
        have noted : x ∈ e := by simpa using new
        have value := (sound.kept k v).mpr ⟨m, old⟩
        rw [← step.key_of_fills noted fills, step.bare stands noted] at value
        cases value
    case stands =>
      intro m after found
      by_cases same : m = n
      · subst same
        exact step.stands_self sound.orderly stands called found
      · obtain ⟨stage, calls⟩ := step.calls called
        rw [calls, List.getElem?_set_ne (Ne.symm same)] at found
        exact step.stands_other sound.orderly stands same (sound.stands m after found)

end Steps

/-! ## Runs -/

theorem Sound.act {s : Sharing κ ν ε} (sound : s.Sound) (a : Action κ ν ε) :
    (s.act a).Sound := by
  cases a with
  | tryCompute key attempt => exact sound.enter key attempt
  | compute key attempt => exact sound.enter key attempt.widen
  | step n => exact sound.step n

theorem Sound.run {s : Sharing κ ν ε} (sound : s.Sound) (actions : List (Action κ ν ε)) :
    (s.run actions).Sound := by
  induction actions generalizing s with
  | nil => exact sound
  | cons a actions ih => exact ih (sound.act a)

theorem slot?_act {s : Sharing κ ν ε} {k : κ} {i : Nat} (slot : s.cache.slot? k = some i)
    (a : Action κ ν ε) :
    (s.act a).cache.slot? k = some i := by
  cases a with
  | tryCompute | compute => exact slot
  | step n =>
      rw [act, Sharing.step]
      split
      · exact slot
      · rename_i call called
        obtain ⟨e, step⟩ := exists_step n call s
        exact step.slot slot

theorem slot?_run {s : Sharing κ ν ε} {k : κ} {i : Nat} (slot : s.cache.slot? k = some i)
    (actions : List (Action κ ν ε)) :
    (s.run actions).cache.slot? k = some i := by
  induction actions generalizing s with
  | nil => exact slot
  | cons a actions ih => exact ih (slot?_act slot a)

/-- After an attempt has succeeded, none for its key begins or succeeds. -/
theorem Sound.last {s : Sharing κ ν ε} (sound : s.Sound) {before after : List (Event κ ν ε)}
    {n : Nat} {k : κ} {v : ν} (split : s.history = before ++ .ended n k (.ok v) :: after)
    {e : Event κ ν ε} (later : e ∈ after) :
    ¬e.Fills k := by
  have once := sound.once
  rw [split] at once
  have rest := (List.pairwise_append.mp once).2.1
  exact (List.pairwise_cons.mp rest).1 e later n k v rfl

theorem Sound.size_eq {s : Sharing κ ν ε} (sound : s.Sound) :
    s.cache.size = (s.history.filterMap Event.filled?).toFinset.card := by
  refine sound.orderly.size_eq_card fun k => ?_
  rw [List.mem_toFinset, List.mem_filterMap, Option.isSome_iff_exists]
  simp only [sound.kept, Event.filled?_eq_some_iff]
  constructor
  · rintro ⟨_, mem, n, v, rfl⟩
    exact ⟨v, n, mem⟩
  · rintro ⟨v, n, mem⟩
    exact ⟨_, mem, n, v, rfl⟩

/-- At most one attempt for a key succeeds, and none begins after it.  A call that returns
a value returns that of this attempt, and any other answer comes from the attempt of the
call itself.  The slot of a key stays the same, and the size is the number of keys for
which an attempt has succeeded. -/
theorem run_fills_once (actions : List (Action κ ν ε)) :
    let s : Sharing κ ν ε := run actions start
    (∀ before n k v after, s.history = before ++ .ended n k (.ok v) :: after →
      (∀ m, .began m k ∉ after) ∧ ∀ m w, .ended m k (.ok w) ∉ after) ∧
    (∀ (n : Nat) (call : Call κ ν ε) (v : ν), s.calls[n]? = some call →
      call.stage = .answered (.ok v) → ∃ m, .ended m call.key (.ok v) ∈ s.history) ∧
    (∀ (n : Nat) (call : Call κ ν ε) (o : Outcome ε ν), s.calls[n]? = some call →
      call.stage = .answered o → o.isOk = false →
        o = call.attempt ∧ .ended n call.key o ∈ s.history) ∧
    (∀ k i, s.cache.slot? k = some i → ∀ more, (run more s).cache.slot? k = some i) ∧
    s.cache.size = (s.history.filterMap Event.filled?).toFinset.card := by
  intro s
  have sound : s.Sound := sound_start.run actions
  refine ⟨?once, ?value, ?failure, fun k i slot more => slot?_run slot more, sound.size_eq⟩
  case once =>
    intro before n k v after split
    constructor
    · intro m began
      exact sound.last split began rfl
    · intro m w ended
      exact sound.last split ended ⟨rfl, rfl⟩
  case value =>
    intro n call v called answered
    have stands := sound.stands n call called
    simp only [Stands, answered] at stands
    exact (sound.kept call.key v).mp stands
  case failure =>
    intro n call o called answered failure
    have stands := sound.stands n call called
    cases o with
    | ok v => cases failure
    | error | panicked => simpa only [Stands, answered] using stands

/-- Two calls for one key: the first fails, and the second waits and makes its own attempt. -/
example :
    let s : Sharing String Nat String := run
      [.tryCompute "k" (.error "down"), .compute "k" (.ok 7), .step 0, .step 1, .step 0, .step 1,
        .step 0, .step 1, .step 1, .step 1] start
    s.calls.map Call.stage = [.answered (.error "down"), .answered (.ok 7)] ∧ s.cache.size = 1 :=
  ⟨rfl, rfl⟩

end Sharing
end RuncardReview
