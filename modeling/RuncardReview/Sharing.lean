import RuncardReview.Cache

/-!
# A cache with several callers

Each key of a cache has a slot, and each slot a cell that is filled once.  When several
callers share the cache, a call first looks up its slot, opening one if there is none;
this is one step.  From then on it holds the cell.  It returns the value of a cell that
is filled, attempts to fill an empty one, and waits as long as another call attempts to.
An attempt that fails or breaks off leaves the cell empty, and ends its call.

Calls are made at any moment and take their steps in any order: `run` follows a list of
such actions.  The history keeps the beginnings and the ends of the attempts.

**Results.**
* `get?_toCache`, `size_toCache`: to one who only reads, the cells are a `Cache`.
-/

namespace RuncardReview

/-- A place for one value. -/
inductive Cell (ν : Type)
  | empty
  /-- The call of that number attempts to fill it. -/
  | running (call : Nat)
  | filled (v : ν)

def Cell.value? {ν : Type} : Cell ν → Option ν
  | filled v => some v
  | _ => none

/-- Slots by key, each with the number of its cell. -/
structure CellCache (κ ν : Type) where
  slots : List (κ × Nat)
  cells : List (Cell ν)

namespace CellCache

variable {κ ν : Type} [DecidableEq κ]

def empty : CellCache κ ν :=
  ⟨[], []⟩

/-- The number of the cell of a key. -/
def slot? (c : CellCache κ ν) (k : κ) : Option Nat :=
  c.slots.lookup k

/-- Opens a slot with a new cell. -/
def opened (c : CellCache κ ν) (k : κ) : CellCache κ ν :=
  ⟨c.slots ++ [(k, c.cells.length)], c.cells ++ [.empty]⟩

def put (c : CellCache κ ν) (i : Nat) (cell : Cell ν) : CellCache κ ν :=
  { c with cells := c.cells.set i cell }

def valueAt? (c : CellCache κ ν) (i : Nat) : Option ν :=
  c.cells[i]?.bind Cell.value?

def get? (c : CellCache κ ν) (k : κ) : Option ν :=
  (c.slot? k).bind c.valueAt?

/-- The number of keys that have a value. -/
def size (c : CellCache κ ν) : Nat :=
  (c.slots.filter fun s => (c.valueAt? s.2).isSome).length

/-- The slots with what they hold. -/
def toCache (c : CellCache κ ν) : Cache κ ν :=
  ⟨c.slots.map fun s => (s.1, c.valueAt? s.2)⟩

theorem get?_toCache (c : CellCache κ ν) (k : κ) :
    c.toCache.get? k = c.get? k := by
  simp only [toCache, Cache.get?, get?, slot?]
  induction c.slots with
  | nil => rfl
  | cons s slots ih =>
      rw [List.map_cons, Cache.valueIn, ih, List.lookup_cons]
      by_cases h : s.1 = k
      · simp [h]
      · have h' : (k == s.1) = false := by simpa using fun e : k = s.1 => h e.symm
        simp [h, h']

omit [DecidableEq κ] in
theorem size_toCache (c : CellCache κ ν) :
    c.toCache.size = c.size := by
  simp [toCache, Cache.size, size, List.filter_map, Function.comp_def]

end CellCache

/-- An outcome of a computation that has no errors. -/
def Outcome.widen {ε α : Type} : Outcome Empty α → Outcome ε α
  | .ok a => .ok a
  | .panicked p => .panicked p

/-- Where a call stands. -/
inductive Stage (ε ν : Type)
  /-- About to look up its slot. -/
  | entered
  /-- About to look at its cell. -/
  | holding (cell : Nat)
  /-- In the middle of its attempt. -/
  | attempting (cell : Nat)
  /-- Returned, or broken off. -/
  | answered (answer : Outcome ε ν)

/-- A call for the value of a key.  Its attempt, if it is made, comes to the outcome
it brings with it. -/
structure Call (κ ν ε : Type) where
  key : κ
  attempt : Outcome ε ν
  stage : Stage ε ν

/-- What happens to the attempt of a call. -/
inductive Event (κ ν ε : Type)
  | began (call : Nat) (key : κ)
  | ended (call : Nat) (key : κ) (outcome : Outcome ε ν)

/-- A cache, the calls made so far and the history of their attempts. -/
structure Sharing (κ ν ε : Type) where
  cache : CellCache κ ν
  calls : List (Call κ ν ε)
  history : List (Event κ ν ε)

namespace Sharing

variable {κ ν ε : Type} [DecidableEq κ]

/-- What may happen next: a call is made, or one that was made takes a step. -/
inductive Action (κ ν ε : Type)
  | tryCompute (key : κ) (attempt : Outcome ε ν)
  | compute (key : κ) (attempt : Outcome Empty ν)
  | step (call : Nat)

def start : Sharing κ ν ε :=
  ⟨.empty, [], []⟩

def enter (key : κ) (attempt : Outcome ε ν) (s : Sharing κ ν ε) : Sharing κ ν ε :=
  { s with calls := s.calls ++ [⟨key, attempt, .entered⟩] }

def note (e : Event κ ν ε) (s : Sharing κ ν ε) : Sharing κ ν ε :=
  { s with history := s.history ++ [e] }

def put (i : Nat) (cell : Cell ν) (s : Sharing κ ν ε) : Sharing κ ν ε :=
  { s with cache := s.cache.put i cell }

/-- Takes a call to its next stage. -/
def advance (n : Nat) (call : Call κ ν ε) (stage : Stage ε ν) (s : Sharing κ ν ε) :
    Sharing κ ν ε :=
  { s with calls := s.calls.set n { call with stage := stage } }

def stepAs (n : Nat) (call : Call κ ν ε) (s : Sharing κ ν ε) : Sharing κ ν ε :=
  match call.stage with
  | .entered =>
      match s.cache.slot? call.key with
      | some i => s.advance n call (.holding i)
      | none =>
          { s with cache := s.cache.opened call.key }.advance n call
            (.holding s.cache.cells.length)
  | .holding i =>
      match s.cache.cells[i]? with
      | some (.filled v) => s.advance n call (.answered (.ok v))
      | some .empty =>
          ((s.put i (.running n)).note (.began n call.key)).advance n call (.attempting i)
      | _ => s
  | .attempting i =>
      match call.attempt with
      | .ok v =>
          ((s.put i (.filled v)).note (.ended n call.key (.ok v))).advance n call (.holding i)
      | other =>
          ((s.put i .empty).note (.ended n call.key other)).advance n call (.answered other)
  | .answered _ => s

/-- Lets the call of that number take its next step. -/
def step (n : Nat) (s : Sharing κ ν ε) : Sharing κ ν ε :=
  match s.calls[n]? with
  | none => s
  | some call => stepAs n call s

def act (s : Sharing κ ν ε) : Action κ ν ε → Sharing κ ν ε
  | .tryCompute key attempt => s.enter key attempt
  | .compute key attempt => s.enter key attempt.widen
  | .step n => s.step n

def run (actions : List (Action κ ν ε)) (s : Sharing κ ν ε) : Sharing κ ν ε :=
  actions.foldl act s

end Sharing
end RuncardReview
