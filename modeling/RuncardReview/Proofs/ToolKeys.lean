import Mathlib.Data.List.Destutter
import Mathlib.Data.List.Sort
import RuncardReview.Proofs.MemoTransparency

/-!
# The key of a list of tools

The records of some tools are remembered under a key, and the key says which tools they are and
nothing else: it is the one ascending list of them.  The same list comes about by sorting the tools
and leaving out each one that repeats the one before it.  Only neighbours are compared in that,
which is enough because sorting brings all repeats of a tool together.

**Results.**
* `eq_toolKey_iff`: the key is the only ascending list of its tools.
* `toolKey_eq_destutter`: the key by sorting.
* `toolKey_canonical`: two lists of tools have one key exactly if they hold the same tools.
-/

namespace RuncardReview

/-- The tools in ascending order, with their repeats. -/
def sortedTools (tools : List String) : List String :=
  tools.mergeSort fun a b => decide (a ≤ b)

theorem pairwise_sortedTools (tools : List String) :
    (sortedTools tools).Pairwise (· ≤ ·) :=
  List.pairwise_mergeSort' (· ≤ ·) tools

theorem eq_toolKey_iff {key tools : List String} :
    key = toolKey tools ↔ key.Pairwise (· < ·) ∧ ∀ t, t ∈ key ↔ t ∈ tools := by
  constructor
  · rintro rfl
    exact ⟨pairwise_toolKey tools, fun _ => mem_toolKey⟩
  · rintro ⟨ascending, same⟩
    exact ascending.eq_of_mem_iff (pairwise_toolKey tools) fun t => (same t).trans mem_toolKey.symm

/-- In a sorted list no repeat is left when no tool equals its neighbour. -/
theorem destutter_sortedTools (tools : List String) :
    (sortedTools tools).destutter (· ≠ ·) = (sortedTools tools).dedup :=
  (pairwise_sortedTools tools).destutter_eq_dedup

theorem toolKey_eq_destutter (tools : List String) :
    toolKey tools = (sortedTools tools).destutter (· ≠ ·) := by
  refine (eq_toolKey_iff.mpr ⟨?ascending, fun t => ?members⟩).symm
  case ascending =>
    have sorted : ((sortedTools tools).destutter (· ≠ ·)).Pairwise (· ≤ ·) :=
      (pairwise_sortedTools tools).sublist (List.destutter_sublist _ _)
    have distinct : ((sortedTools tools).destutter (· ≠ ·)).Nodup := by
      rw [destutter_sortedTools]
      exact List.nodup_dedup _
    exact (sorted.and distinct).imp fun ⟨le, ne⟩ =>
      String.not_le.mp fun back => ne (String.le_antisymm le back)
  case members =>
    rw [destutter_sortedTools, List.mem_dedup, sortedTools, List.mem_mergeSort]

/-- Two lists of tools have one key exactly if they hold the same tools, in whatever order and
however often.  The key ascends, holds these tools and no others, and is what sorting the list and
leaving out repeated neighbours gives. -/
theorem toolKey_canonical (tools others : List String) :
    (toolKey tools = toolKey others ↔ ∀ t, t ∈ tools ↔ t ∈ others) ∧
      (toolKey tools).Pairwise (· < ·) ∧
      (∀ t, t ∈ toolKey tools ↔ t ∈ tools) ∧
      toolKey tools = (sortedTools tools).destutter (· ≠ ·) :=
  ⟨toolKey_eq_iff, pairwise_toolKey tools, fun _ => mem_toolKey, toolKey_eq_destutter tools⟩

example : toolKey ["T2", "T10", "T2", "T1", "T10"] = ["T1", "T10", "T2"] := by
  decide +kernel

end RuncardReview
