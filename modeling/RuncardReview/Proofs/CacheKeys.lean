import Mathlib.Data.List.Perm.Basic
import RuncardReview.Cache
import RuncardReview.Distinct

/-!
# The filled keys of a cache

A cache is followed by the keys under which it keeps something.  No key has two slots,
so these keys are also counted by the size of the cache.

**Results.**
* `mem_filledKeys`: they are the keys that hold something.
* `filledKeys_access`: an access fills at most its own key.
-/

namespace RuncardReview

open scoped List

/-- Whether a computation came to an answer. -/
def Outcome.isOk {ε α : Type} : Outcome ε α → Bool
  | .ok _ => true
  | _ => false

namespace Cache

variable {κ ν ε : Type}

/-- The keys under which something is kept. -/
def filledKeys (c : Cache κ ν) : List κ :=
  (c.slots.filter fun s => s.2.isSome).map Prod.fst

/-- No key has two slots. -/
def Separate (c : Cache κ ν) : Prop :=
  (c.slots.map Prod.fst).Nodup

theorem size_eq (c : Cache κ ν) :
    c.size = c.filledKeys.length := by
  simp [size, filledKeys]

variable [DecidableEq κ]

theorem map_fst_opened (k : κ) (l : List (κ × Option ν)) :
    (opened k l).map Prod.fst = Distinct.addNew (l.map Prod.fst) k := by
  induction l with
  | nil => rfl
  | cons s l ih =>
      rw [opened]
      by_cases h : s.1 = k
      · simp [h, Distinct.addNew]
      · have h' : k ≠ s.1 := fun e => h e.symm
        rw [if_neg h, List.map_cons, ih]
        by_cases hk : k ∈ l.map Prod.fst <;> simp [Distinct.addNew, hk, h']

theorem map_fst_filled (k : κ) (v : ν) (l : List (κ × Option ν)) :
    (filled k v l).map Prod.fst = l.map Prod.fst := by
  induction l with
  | nil => rfl
  | cons s l ih =>
      rw [filled]
      by_cases h : s.1 = k <;> simp [h, ih]

theorem filter_opened (k : κ) (l : List (κ × Option ν)) :
    (opened k l).filter (fun s => s.2.isSome) = l.filter fun s => s.2.isSome := by
  induction l with
  | nil => rfl
  | cons s l ih =>
      rw [opened]
      by_cases h : s.1 = k
      · rw [if_pos h]
      · rw [if_neg h, List.filter_cons, List.filter_cons, ih]

theorem filter_filled {k : κ} (v : ν) {l : List (κ × Option ν)} (none : valueIn k l = none) :
    (filled k v (opened k l)).filter (fun s => s.2.isSome) ~
      (k, some v) :: l.filter fun s => s.2.isSome := by
  induction l with
  | nil => simp [opened, filled]
  | cons s l ih =>
      rw [valueIn] at none
      by_cases h : s.1 = k
      · rw [if_pos h] at none
        simp [opened, filled, h, none]
      · rw [if_neg h] at none
        simp only [opened, if_neg h, filled, List.filter_cons]
        split
        · exact ((ih none).cons s).trans (.swap _ _ _)
        · exact ih none

theorem mem_filledKeys {c : Cache κ ν} (separate : c.Separate) {k : κ} :
    k ∈ c.filledKeys ↔ (c.get? k).isSome = true := by
  obtain ⟨slots⟩ := c
  simp only [filledKeys, get?, List.mem_map, List.mem_filter]
  induction slots with
  | nil => simp [valueIn]
  | cons s slots ih =>
      obtain ⟨fresh, rest⟩ := List.nodup_cons.mp separate
      rw [valueIn]
      by_cases h : s.1 = k
      · have others : ∀ t ∈ slots, t.1 ≠ k := by
          intro t ht e
          exact fresh (h ▸ e ▸ List.mem_map_of_mem ht)
        rw [if_pos h]
        constructor
        · rintro ⟨t, ⟨ht, some⟩, e⟩
          rcases List.mem_cons.mp ht with rfl | ht
          · exact some
          · exact absurd e (others t ht)
        · intro some
          exact ⟨s, ⟨List.mem_cons_self, some⟩, h⟩
      · rw [if_neg h, ← ih rest]
        constructor
        · rintro ⟨t, ⟨ht, some⟩, e⟩
          rcases List.mem_cons.mp ht with rfl | ht
          · exact absurd e h
          · exact ⟨t, ⟨ht, some⟩, e⟩
        · rintro ⟨t, ⟨ht, some⟩, e⟩
          exact ⟨t, ⟨List.mem_cons_of_mem s ht, some⟩, e⟩

theorem attempted_access (c : Cache κ ν) (k : κ) (attempt : Outcome ε ν) :
    (c.access k attempt).attempted = (c.get? k).isNone := by
  unfold access
  split
  · rename_i v kept
    simp [kept]
  · rename_i empty
    cases attempt <;> simp [empty]

theorem answer_access (c : Cache κ ν) (k : κ) (attempt : Outcome ε ν) :
    (c.access k attempt).answer = (c.get? k).elim attempt .ok := by
  unfold access
  split
  · rename_i v kept
    simp [kept]
  · rename_i empty
    cases attempt <;> simp [empty]

theorem get?_access_eq_some_iff {c : Cache κ ν} {k j : κ} {attempt : Outcome ε ν} {v : ν} :
    (c.access k attempt).cache.get? j = some v ↔
      c.get? j = some v ∨ (c.get? j = none ∧ k = j ∧ attempt = .ok v) := by
  rw [get?_access]
  cases kept : c.get? j with
  | some w => simp
  | none => cases attempt <;> simp

theorem Separate.access {c : Cache κ ν} (separate : c.Separate) (k : κ)
    (attempt : Outcome ε ν) :
    (c.access k attempt).cache.Separate := by
  have opens : ((opened k c.slots).map Prod.fst).Nodup := by
    rw [map_fst_opened]
    exact Distinct.nodup_addNew separate
  unfold Cache.access
  split
  · exact separate
  · cases attempt with
    | ok v =>
        rw [Separate, map_fst_filled]
        exact opens
    | error e => exact opens
    | panicked p => exact opens

/-- An access fills its own key, if that was empty and the attempt succeeds. -/
theorem filledKeys_access (c : Cache κ ν) (k : κ) (attempt : Outcome ε ν) :
    (c.access k attempt).cache.filledKeys ~
      (if (c.get? k).isNone && attempt.isOk then [k] else []) ++ c.filledKeys := by
  unfold access
  split
  · rename_i v kept
    simp [kept]
  · rename_i empty
    cases attempt with
    | ok v =>
        have gained := (filter_filled v empty).map Prod.fst
        simpa [filledKeys, empty, Outcome.isOk] using gained
    | error e => simp [filledKeys, filter_opened, Outcome.isOk]
    | panicked p => simp [filledKeys, filter_opened, Outcome.isOk]

theorem map_filledKeys_access {α : Type} (f : κ → α) (c : Cache κ ν) (k : κ)
    (attempt : Outcome ε ν) :
    (c.access k attempt).cache.filledKeys.map f ~
      (if (c.get? k).isNone && attempt.isOk then [f k] else []) ++ c.filledKeys.map f := by
  have gained := (c.filledKeys_access k attempt).map f
  rw [List.map_append] at gained
  split <;> simp_all

end Cache

end RuncardReview
