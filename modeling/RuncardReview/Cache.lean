import RuncardReview.Failure

/-!
# Compute if absent

A cache keeps the first successful answer for each key.  Asking for a key opens
a slot for it; an attempt that fails or breaks off leaves the slot empty, and
the next one who asks attempts it again.

**Results.**
* `get?_access`: after an access a key holds what it held before, or what the
  attempt gave if it was empty.
-/

namespace RuncardReview

/-- Slots by key, in the order in which they were opened. -/
structure Cache (κ ν : Type) where
  slots : List (κ × Option ν)

namespace Cache

variable {κ ν ε : Type} [DecidableEq κ]

def empty : Cache κ ν :=
  ⟨[]⟩

def valueIn (k : κ) : List (κ × Option ν) → Option ν
  | [] => none
  | s :: l => if s.1 = k then s.2 else valueIn k l

/-- Opens the slot of a key if there is none. -/
def opened (k : κ) : List (κ × Option ν) → List (κ × Option ν)
  | [] => [(k, none)]
  | s :: l => if s.1 = k then s :: l else s :: opened k l

def filled (k : κ) (v : ν) : List (κ × Option ν) → List (κ × Option ν)
  | [] => []
  | s :: l => if s.1 = k then (k, some v) :: l else s :: filled k v l

def get? (c : Cache κ ν) (k : κ) : Option ν :=
  valueIn k c.slots

def size (c : Cache κ ν) : Nat :=
  (c.slots.filter fun s => s.2.isSome).length

/-- What an access comes to: the answer, whether the attempt was made, and the
cache afterwards. -/
structure Access (κ ν ε : Type) where
  answer : Outcome ε ν
  attempted : Bool
  cache : Cache κ ν

/-- The value of a key, by an attempt if there is none. -/
def access (c : Cache κ ν) (k : κ) (attempt : Outcome ε ν) : Access κ ν ε :=
  match c.get? k with
  | some v => ⟨.ok v, false, c⟩
  | none =>
      match attempt with
      | .ok v => ⟨.ok v, true, ⟨filled k v (opened k c.slots)⟩⟩
      | other => ⟨other, true, ⟨opened k c.slots⟩⟩

theorem valueIn_opened (k j : κ) :
    ∀ l : List (κ × Option ν), valueIn j (opened k l) = valueIn j l
  | [] => by simp [opened, valueIn]
  | s :: l => by
      simp only [opened]
      split
      · rfl
      · simp [valueIn, valueIn_opened k j l]

theorem valueIn_filled (k j : κ) (v : ν) :
    ∀ l : List (κ × Option ν), valueIn j (filled k v (opened k l)) =
      if k = j then some v else valueIn j l
  | [] => by simp [opened, filled, valueIn]
  | s :: l => by
      simp only [opened]
      split
      · rename_i hs
        by_cases hj : k = j
        · simp [filled, valueIn, hs, hj]
        · have : s.1 ≠ j := fun e => hj (hs.symm.trans e)
          simp [filled, valueIn, hs, hj]
      · rename_i hs
        simp only [filled, if_neg hs, valueIn, valueIn_filled k j v l]
        by_cases hj : s.1 = j
        · have : k ≠ j := fun e => hs (hj.trans e.symm)
          simp [hj, this]
        · simp [hj]

theorem get?_access (c : Cache κ ν) (k j : κ) (attempt : Outcome ε ν) :
    (c.access k attempt).cache.get? j =
      match c.get? j, attempt with
      | some v, _ => some v
      | none, .ok v => if k = j then some v else none
      | none, _ => none := by
  unfold access
  split
  · rename_i v hk
    by_cases hj : k = j
    · subst hj
      simp [hk]
    · cases c.get? j <;> cases attempt <;> simp [hj]
  · rename_i hk
    cases attempt with
    | ok v =>
        simp only [get?] at hk ⊢
        rw [valueIn_filled]
        by_cases hj : k = j
        · subst hj
          simp [hk]
        · cases valueIn j c.slots <;> simp [hj]
    | error e =>
        simp only [get?, valueIn_opened]
        cases valueIn j c.slots <;> rfl
    | panicked p =>
        simp only [get?, valueIn_opened]
        cases valueIn j c.slots <;> rfl

end Cache
end RuncardReview
