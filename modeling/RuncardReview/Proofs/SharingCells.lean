import Mathlib.Data.Finset.Card
import Mathlib.Data.List.Nodup
import RuncardReview.Proofs.CacheKeys
import RuncardReview.Sharing

/-!
# Slots and their cells

Each key of a cache with several callers has one slot, and each slot a cell of its own.
So what is put into the cell of a key is seen under this key and under no other.

**Results.**
* `Orderly.slot_injective`: two keys do not share a cell.
* `Orderly.get?_opened`, `Orderly.get?_put`: the values after a change of one cell.
* `Orderly.size_eq_card`: the size counts the keys that have a value.
-/

namespace RuncardReview

namespace CellCache

variable {κ ν : Type}

/-- Each slot has a cell of its own, and each key one slot. -/
structure Orderly (c : CellCache κ ν) : Prop where
  cells : c.slots.map Prod.snd = List.range c.cells.length
  keys : (c.slots.map Prod.fst).Nodup

theorem orderly_empty :
    (empty : CellCache κ ν).Orderly :=
  ⟨rfl, .nil⟩

theorem Orderly.put {c : CellCache κ ν} (h : c.Orderly) (i : Nat) (cell : Cell ν) :
    (c.put i cell).Orderly := by
  constructor
  · simpa [CellCache.put] using h.cells
  · exact h.keys

variable [DecidableEq κ] {c : CellCache κ ν} {j k : κ} {i : Nat}

theorem mem_of_slot? (slot : c.slot? k = some i) :
    (k, i) ∈ c.slots := by
  obtain ⟨front, back, split, -⟩ := List.lookup_eq_some_iff.mp slot
  simp [split]

theorem not_mem_keys (new : c.slot? k = none) :
    k ∉ c.slots.map Prod.fst := by
  intro mem
  obtain ⟨s, hs, rfl⟩ := List.mem_map.mp mem
  simpa using List.lookup_eq_none_iff.mp new s hs

theorem slot?_opened (k j : κ) :
    (c.opened k).slot? j = (c.slot? j).or (if j = k then some c.cells.length else none) := by
  rw [slot?, opened, List.lookup_append, ← slot?, List.lookup_cons]
  by_cases h : j = k
  · simp [h]
  · simp [h, beq_false_of_ne h]

theorem slot?_opened_self (new : c.slot? k = none) :
    (c.opened k).slot? k = some c.cells.length := by
  simp [slot?_opened, new]

theorem slot?_opened_of_some (slot : c.slot? j = some i) (k : κ) :
    (c.opened k).slot? j = some i := by
  simp [slot?_opened, slot]

/-- A key whose cell is not filled has no value. -/
theorem get?_of_bare {cell : Cell ν} (slot : c.slot? k = some i)
    (found : c.cells[i]? = some cell) (bare : cell.value? = none) :
    c.get? k = none := by
  simp [get?, slot, valueAt?, found, bare]

namespace Orderly

theorem slot_lt (h : c.Orderly) (slot : c.slot? k = some i) :
    i < c.cells.length := by
  have listed : i ∈ c.slots.map Prod.snd := List.mem_map_of_mem (mem_of_slot? slot)
  rwa [h.cells, List.mem_range] at listed

/-- Two keys do not share a cell. -/
theorem slot_injective (h : c.Orderly) (first : c.slot? j = some i)
    (second : c.slot? k = some i) :
    j = k := by
  have separate : (c.slots.map Prod.snd).Nodup := h.cells ▸ List.nodup_range
  have same := List.inj_on_of_nodup_map separate (mem_of_slot? first) (mem_of_slot? second) rfl
  exact congrArg Prod.fst same

theorem opened (h : c.Orderly) (new : c.slot? k = none) :
    (c.opened k).Orderly := by
  constructor
  · simp [CellCache.opened, h.cells, List.range_succ]
  · have keys := List.nodup_append.mpr ⟨h.keys, List.nodup_singleton k, fun a ha b hb same =>
      not_mem_keys new (List.mem_singleton.mp hb ▸ same ▸ ha)⟩
    simpa [CellCache.opened] using keys

/-- A new cell is empty. -/
theorem get?_opened (h : c.Orderly) (k j : κ) :
    (c.opened k).get? j = c.get? j := by
  rw [CellCache.get?, slot?_opened, CellCache.get?]
  cases slot : c.slot? j with
  | some i =>
      have old : (c.cells ++ [Cell.empty])[i]? = c.cells[i]? :=
        List.getElem?_append_left (h.slot_lt slot)
      simp [CellCache.opened, valueAt?, old]
  | none =>
      by_cases same : j = k <;> simp [same, CellCache.opened, valueAt?, Cell.value?]

theorem get?_put (h : c.Orderly) (slot : c.slot? k = some i) (cell : Cell ν) (j : κ) :
    (c.put i cell).get? j = if j = k then cell.value? else c.get? j := by
  have within := h.slot_lt slot
  by_cases same : j = k
  · simp [same, CellCache.get?, CellCache.slot?, CellCache.put, valueAt?, within,
      show c.slots.lookup k = some i from slot]
  · rw [if_neg same, CellCache.get?, CellCache.get?]
    show (c.slot? j).bind _ = _
    cases other : c.slot? j with
    | none => rfl
    | some m =>
        have apart : i ≠ m := fun e => same (h.slot_injective (e ▸ other) slot)
        simp [CellCache.put, valueAt?, apart]

theorem size_eq_card (h : c.Orderly) {keys : Finset κ}
    (filled : ∀ k, k ∈ keys ↔ (c.get? k).isSome = true) :
    c.size = keys.card := by
  have separate : c.toCache.Separate := by
    simpa [Cache.Separate, toCache, Function.comp_def] using h.keys
  have nodup : c.toCache.filledKeys.Nodup := separate.sublist (List.filter_sublist.map _)
  have same : c.toCache.filledKeys.toFinset = keys := by
    ext k
    rw [List.mem_toFinset, Cache.mem_filledKeys separate, get?_toCache, filled]
  rw [← size_toCache, Cache.size_eq, ← List.toFinset_card_of_nodup nodup, same]

end Orderly
end CellCache

end RuncardReview
