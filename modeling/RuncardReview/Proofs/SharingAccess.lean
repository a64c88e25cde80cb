import Mathlib.Data.List.Induction
import RuncardReview.Proofs.SharingOnce

/-!
# A shared cache and the cache of one caller

The cache of one caller answers each access at once.  A shared cache whose callers take
their steps in any order keeps what it would keep if the attempts had been made one after
the other, in the order in which they ended.  A call that nobody disturbs is an access.

**Results.**
* `get?_run`: the values after a run are those of a cache accessed by its attempts.
* `run_alone`: the answer of a call that is not disturbed, and the values it leaves.
-/

namespace RuncardReview

/-! ## Cells -/

/-- What an attempt leaves in its cell. -/
def Outcome.cell {ε ν : Type} : Outcome ε ν → Cell ν
  | .ok v => .filled v
  | _ => .empty

namespace CellCache

variable {κ ν ε : Type}

theorem put_put (c : CellCache κ ν) (i : Nat) (first second : Cell ν) :
    (c.put i first).put i second = c.put i second := by
  simp [put]

variable [DecidableEq κ] {c : CellCache κ ν} {k : κ} {i : Nat}

theorem get?_access_of_some {v : ν} (value : c.get? k = some v)
    (attempt : Outcome ε ν) (j : κ) :
    (c.toCache.access k attempt).cache.get? j = c.get? j := by
  have kept : c.toCache.get? k = some v := (get?_toCache c k).trans value
  simp [Cache.access, kept, get?_toCache]

/-- To put the end of an attempt into the empty cell of its key is to access the key. -/
theorem Orderly.get?_put_cell (h : c.Orderly) (slot : c.slot? k = some i)
    (bare : c.get? k = none) (attempt : Outcome ε ν) (j : κ) :
    (c.put i attempt.cell).get? j = (c.toCache.access k attempt).cache.get? j := by
  rw [h.get?_put slot, Cache.get?_access, get?_toCache]
  by_cases same : j = k
  · cases attempt <;> simp [same, bare, Outcome.cell, Cell.value?]
  · cases attempt <;> cases c.get? j <;> simp [same, Ne.symm same]

end CellCache

/-! ## Attempts one after the other -/

/-- A cache that is accessed by an attempt as it ends. -/
def Event.perform {κ ν ε : Type} [DecidableEq κ] (c : Cache κ ν) : Event κ ν ε → Cache κ ν
  | .began .. => c
  | .ended _ k o => (c.access k o).cache

namespace Sharing

variable {κ ν ε : Type} [DecidableEq κ]

theorem get?_foldl_perform {history : List (Event κ ν ε)}
    (once : history.Pairwise fun e f => ∀ n k v, e = .ended n k (.ok v) → ¬f.Fills k)
    (k : κ) (v : ν) :
    (history.foldl Event.perform .empty).get? k = some v ↔
      ∃ n, .ended n k (.ok v) ∈ history := by
  induction history using List.reverseRecOn generalizing v with
  | nil => simp [Cache.get?, Cache.empty, Cache.valueIn]
  | append_singleton history e ih =>
      obtain ⟨before, -, last⟩ := List.pairwise_append.mp once
      replace ih := ih before
      rw [List.foldl_concat]
      cases e with
      | began n j => simp [Event.perform, ih]
      | ended n j o =>
          rw [Event.perform, Cache.get?_access_eq_some_iff, ih]
          constructor
          · rintro (⟨m, old⟩ | ⟨-, rfl, rfl⟩)
            · exact ⟨m, List.mem_append_left _ old⟩
            · exact ⟨n, List.mem_append_right _ (List.mem_singleton_self _)⟩
          · rintro ⟨m, mem⟩
            rcases List.mem_append.mp mem with old | new
            · exact .inl ⟨m, old⟩
            · obtain ⟨-, rfl, rfl⟩ := Event.ended.inj (List.mem_singleton.mp new)
              refine .inr ⟨Option.eq_none_iff_forall_ne_some.mpr fun w value => ?_, rfl, rfl⟩
              obtain ⟨m, old⟩ := (ih w).mp value
              exact last _ old _ (List.mem_singleton_self _) m _ w rfl ⟨rfl, rfl⟩

/-- The values are those of a cache that is accessed by one attempt after the other. -/
theorem get?_run (actions : List (Action κ ν ε)) (k : κ) :
    (run actions start).cache.get? k =
      ((run actions start).history.foldl Event.perform .empty).get? k := by
  have sound : (run actions (start : Sharing κ ν ε)).Sound := sound_start.run actions
  ext v
  rw [sound.kept, get?_foldl_perform sound.once]

/-! ## A call that is not disturbed -/

section Alone

variable {c : CellCache κ ν} {calls : List (Call κ ν ε)} {history : List (Event κ ν ε)}
variable {key : κ} {attempt : Outcome ε ν} {i : Nat}

theorem step_last (c : CellCache κ ν) (calls : List (Call κ ν ε)) (call : Call κ ν ε)
    (history : List (Event κ ν ε)) :
    step calls.length ⟨c, calls ++ [call], history⟩ =
      stepAs calls.length call ⟨c, calls ++ [call], history⟩ := by
  simp [step]

omit [DecidableEq κ] in
theorem advance_last (c : CellCache κ ν) (calls : List (Call κ ν ε)) (call : Call κ ν ε)
    (history : List (Event κ ν ε)) (stage : Stage ε ν) :
    advance calls.length call stage ⟨c, calls ++ [call], history⟩ =
      ⟨c, calls ++ [{ call with stage := stage }], history⟩ := by
  simp [advance]

/-- Its first step gives a call the cell of its key, which is a new one or the old one. -/
theorem step_entered (orderly : c.Orderly) (calls : List (Call κ ν ε))
    (history : List (Event κ ν ε)) (key : κ) (attempt : Outcome ε ν) :
    ∃ (d : CellCache κ ν) (i : Nat),
      step calls.length ⟨c, calls ++ [⟨key, attempt, .entered⟩], history⟩ =
        ⟨d, calls ++ [⟨key, attempt, .holding i⟩], history⟩ ∧
      d.Orderly ∧ d.slot? key = some i ∧ (∀ k, d.get? k = c.get? k) ∧
      (d.cells[i]? = some .empty ∨ c.slot? key = some i ∧ d = c) := by
  rw [step_last]
  cases slot : c.slot? key with
  | some i =>
      refine ⟨c, i, ?_, orderly, slot, fun _ => rfl, .inr ⟨rfl, rfl⟩⟩
      simp only [stepAs, slot, advance_last]
  | none =>
      refine ⟨c.opened key, c.cells.length, ?_, orderly.opened slot,
        CellCache.slot?_opened_self slot, orderly.get?_opened key, .inl ?_⟩
      · simp only [stepAs, slot, advance_last]
      · simp [CellCache.opened]

theorem step_answered (c : CellCache κ ν) (calls : List (Call κ ν ε)) (key : κ)
    (attempt answer : Outcome ε ν) (history : List (Event κ ν ε)) :
    step calls.length ⟨c, calls ++ [⟨key, attempt, .answered answer⟩], history⟩ =
      ⟨c, calls ++ [⟨key, attempt, .answered answer⟩], history⟩ := by
  rw [step_last]
  rfl

theorem step_holding_filled {v : ν} (cell : c.cells[i]? = some (.filled v)) :
    step calls.length ⟨c, calls ++ [⟨key, attempt, .holding i⟩], history⟩ =
      ⟨c, calls ++ [⟨key, attempt, .answered (.ok v)⟩], history⟩ := by
  rw [step_last]
  simp only [stepAs, cell, advance_last]

/-- An attempt that nobody disturbs ends the call with its outcome. -/
theorem steps_attempting (within : i < c.cells.length) (calls : List (Call κ ν ε))
    (history : List (Event κ ν ε)) (key : κ) (attempt : Outcome ε ν) :
    ∃ events,
      step calls.length (step calls.length
          ⟨c, calls ++ [⟨key, attempt, .attempting i⟩], history⟩) =
        ⟨c.put i attempt.cell, calls ++ [⟨key, attempt, .answered attempt⟩], events⟩ := by
  rw [step_last]
  cases attempt with
  | ok v =>
      have filled : (c.put i (.filled v)).cells[i]? = some (.filled v) := by
        simp [CellCache.put, within]
      simp only [stepAs, put, note, advance_last]
      exact ⟨_, step_holding_filled filled⟩
  | error | panicked =>
      simp only [stepAs, put, note, advance_last]
      exact ⟨_, step_answered _ _ _ _ _ _⟩

/-- A call that holds a cell that nobody is about to fill comes to its answer. -/
theorem steps_holding (orderly : c.Orderly) (slot : c.slot? key = some i)
    (free : ∀ m, c.cells[i]? ≠ some (.running m)) (calls : List (Call κ ν ε))
    (history : List (Event κ ν ε)) (attempt : Outcome ε ν) :
    ∃ d events,
      run (List.replicate 3 (.step calls.length))
          ⟨c, calls ++ [⟨key, attempt, .holding i⟩], history⟩ =
        ⟨d, calls ++ [⟨key, attempt, .answered ((c.get? key).elim attempt .ok)⟩], events⟩ ∧
      ∀ k, d.get? k = (c.toCache.access key attempt).cache.get? k := by
  simp only [run, List.replicate, List.foldl_cons, List.foldl_nil, act]
  have within := orderly.slot_lt slot
  cases cell : c.cells[i]? with
  | none => exact absurd cell (by simpa using within)
  | some held =>
      cases held with
      | running m => exact absurd cell (free m)
      | filled v =>
          have value : c.get? key = some v := by
            simp [CellCache.get?, slot, CellCache.valueAt?, cell, Cell.value?]
          rw [step_holding_filled cell, step_answered, step_answered, value]
          exact ⟨c, history, rfl, fun k => (CellCache.get?_access_of_some value attempt k).symm⟩
      | empty =>
          have bare := CellCache.get?_of_bare slot cell rfl
          have began : step calls.length
              ⟨c, calls ++ [⟨key, attempt, .holding i⟩], history⟩ =
                ⟨c.put i (.running calls.length), calls ++ [⟨key, attempt, .attempting i⟩],
                  history ++ [.began calls.length key]⟩ := by
            rw [step_last]
            simp only [stepAs, cell, put, note, advance_last]
          have within' : i < (c.put i (.running calls.length)).cells.length := by
            simpa [CellCache.put] using within
          obtain ⟨events, ended⟩ := steps_attempting within' calls
            (history ++ [.began calls.length key]) key attempt
          rw [began, ended, CellCache.put_put, bare]
          exact ⟨_, events, rfl, orderly.get?_put_cell slot bare attempt⟩

/-- A call for a key that no other call is about to fill comes to its answer in four
steps.  It answers as the cache of one caller does, and leaves the same values. -/
theorem run_alone {s : Sharing κ ν ε} (sound : s.Sound) (key : κ) (attempt : Outcome ε ν)
    (free : ∀ i m, s.cache.slot? key = some i → s.cache.cells[i]? ≠ some (.running m)) :
    ∃ d events,
      run (.tryCompute key attempt :: List.replicate 4 (.step s.calls.length)) s =
        ⟨d, s.calls ++ [⟨key, attempt,
          .answered (s.cache.toCache.access key attempt).answer⟩], events⟩ ∧
      ∀ k, d.get? k = (s.cache.toCache.access key attempt).cache.get? k := by
  obtain ⟨c, calls, history⟩ := s
  obtain ⟨d, i, entered, orderly, slot, same, cell⟩ :=
    step_entered sound.orderly calls history key attempt
  have unheld : ∀ m, d.cells[i]? ≠ some (.running m) := by
    rcases cell with empty | ⟨old, rfl⟩
    · simp [empty]
    · exact fun m => free i m old
  obtain ⟨after, events, holding, values⟩ :=
    steps_holding orderly slot unheld calls history attempt
  refine ⟨after, events, ?_, fun k => ?_⟩
  · have first : run (.tryCompute key attempt :: List.replicate 4 (.step calls.length))
        ⟨c, calls, history⟩ = run (List.replicate 3 (.step calls.length))
          (step calls.length ⟨c, calls ++ [⟨key, attempt, .entered⟩], history⟩) := rfl
    rw [first, entered, holding, Cache.answer_access, CellCache.get?_toCache, same]
  · rw [values, Cache.get?_access, Cache.get?_access, CellCache.get?_toCache,
      CellCache.get?_toCache, same]

end Alone

end Sharing
end RuncardReview
