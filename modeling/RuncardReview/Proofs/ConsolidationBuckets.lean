import Mathlib.Data.List.Induction
import RuncardReview.Consolidation
import RuncardReview.Proofs.LampOrder

/-!
# Consolidation, rule type by rule type

The buckets are filled in one pass over all results.  Seen from the outside each of
them is the fold of the results of its own rule type, and the buckets stand in the
order in which the rule types first appear.

**Results.**
* `buckets_eq_map`: the pass, rule type by rule type.
* `consolidate_ruleTypes`: one result for each rule type, in order of first
  appearance.
* `consolidate_lamp_isGreatest`: its lamp is the greatest of the type.
-/

namespace RuncardReview

namespace Consolidation

open Distinct (firsts addNew)

/-- What is gathered for a rule type from some results. -/
def bucketOf (entries : List Result) (ruleType : String) : Bucket :=
  (entries.filter fun r => r.ruleType = ruleType).foldl Bucket.absorb (Bucket.empty ruleType)

theorem foldl_absorb_ruleType (entries : List Result) (b : Bucket) :
    (entries.foldl Bucket.absorb b).ruleType = b.ruleType := by
  induction entries generalizing b with
  | nil => rfl
  | cons r entries ih => exact ih (b.absorb r)

theorem foldl_absorb_lamp (entries : List Result) (b : Bucket) :
    (entries.foldl Bucket.absorb b).lamp = (entries.map Result.lamp).foldl max b.lamp := by
  induction entries generalizing b with
  | nil => rfl
  | cons r entries ih => exact ih (b.absorb r)

@[simp] theorem bucketOf_ruleType (entries : List Result) (ruleType : String) :
    (bucketOf entries ruleType).ruleType = ruleType :=
  foldl_absorb_ruleType _ _

theorem bucketOf_concat (entries : List Result) (r : Result) (ruleType : String) :
    bucketOf (entries ++ [r]) ruleType =
      if r.ruleType = ruleType then (bucketOf entries ruleType).absorb r
      else bucketOf entries ruleType := by
  by_cases h : r.ruleType = ruleType <;> simp [bucketOf, List.filter_append, h]

/-- Gathering a result into the buckets of distinct rule types. -/
theorem gather_map (r : Result) (bucket : String → Bucket)
    (filed : ∀ t, (bucket t).ruleType = t) :
    ∀ types : List String, types.Nodup →
      gather r (types.map bucket) =
        if r.ruleType ∈ types then
          types.map fun t => if r.ruleType = t then (bucket t).absorb r else bucket t
        else types.map bucket ++ [(Bucket.empty r.ruleType).absorb r]
  | [], _ => by simp [gather]
  | t :: types, distinct => by
      obtain ⟨fresh, rest⟩ := List.nodup_cons.mp distinct
      have ih := gather_map r bucket filed types rest
      simp only [List.map_cons, gather, filed]
      by_cases h : t = r.ruleType
      · subst h
        have others : ∀ s ∈ types, r.ruleType ≠ s := fun s hs e => fresh (e ▸ hs)
        have same : types.map (fun s => if r.ruleType = s then (bucket s).absorb r else bucket s)
            = types.map bucket :=
          List.map_congr_left fun s hs => if_neg (others s hs)
        simp [same]
      · have h' : r.ruleType ≠ t := fun e => h e.symm
        rw [if_neg h, ih]
        by_cases hm : r.ruleType ∈ types <;> simp [hm, h']

/-- The buckets are those of the rule types, in order of first appearance. -/
theorem buckets_eq_map (entries : List Result) :
    buckets entries = (firsts (entries.map Result.ruleType)).map (bucketOf entries) := by
  induction entries using List.reverseRecOn with
  | nil => rfl
  | append_singleton entries r ih =>
      have step : buckets (entries ++ [r]) = gather r (buckets entries) := by
        simp [buckets]
      have regroup : bucketOf (entries ++ [r]) = fun t =>
          if r.ruleType = t then (bucketOf entries t).absorb r else bucketOf entries t :=
        funext (bucketOf_concat entries r)
      rw [step, ih, gather_map r (bucketOf entries) (bucketOf_ruleType entries) _
        (Distinct.nodup_firsts _), List.map_append, List.map_singleton,
        Distinct.firsts_concat, addNew]
      by_cases h : r.ruleType ∈ firsts (entries.map Result.ruleType)
      · rw [if_pos h, if_pos h, regroup]
      · have others : ∀ t ∈ firsts (entries.map Result.ruleType),
            bucketOf (entries ++ [r]) t = bucketOf entries t := by
          intro t ht
          have other : r.ruleType ≠ t := fun e => h (e ▸ ht)
          rw [bucketOf_concat, if_neg other]
        have fresh : bucketOf entries r.ruleType = Bucket.empty r.ruleType := by
          have none : (entries.filter fun s => s.ruleType = r.ruleType) = [] := by
            refine List.filter_eq_nil_iff.mpr fun s hs e => h ?_
            rw [Distinct.mem_firsts, ← of_decide_eq_true e]
            exact List.mem_map_of_mem hs
          rw [bucketOf, none]
          rfl
        rw [if_neg h, if_neg h, List.map_append, List.map_congr_left others,
          List.map_singleton, bucketOf_concat, if_pos rfl, fresh]

theorem consolidate_eq_map (entries : List Result) :
    consolidate entries =
      (firsts (entries.map Result.ruleType)).map fun t => (bucketOf entries t).finish := by
  rw [consolidate, buckets_eq_map, List.map_map]
  rfl

@[simp] theorem finish_ruleType (b : Bucket) :
    b.finish.ruleType = b.ruleType := by
  unfold Bucket.finish
  split <;> rfl

@[simp] theorem finish_lamp (b : Bucket) :
    b.finish.lamp = b.lamp := by
  unfold Bucket.finish
  split <;> rfl

theorem consolidate_ruleTypes (entries : List Result) :
    (consolidate entries).map Result.ruleType = firsts (entries.map Result.ruleType) := by
  simp [consolidate_eq_map, Function.comp_def]

/-- The lamp of a consolidated result is the greatest among the results of its type. -/
theorem consolidate_lamp_isGreatest {entries : List Result} {r : Result}
    (h : r ∈ consolidate entries) :
    IsGreatest {a | ∃ e ∈ entries, e.ruleType = r.ruleType ∧ e.lamp = a} r.lamp := by
  rw [consolidate_eq_map] at h
  obtain ⟨t, ht, rfl⟩ := List.mem_map.mp h
  obtain ⟨e, he, rfl⟩ := List.mem_map.mp (Distinct.mem_firsts.mp ht)
  have some : ((entries.filter fun s => s.ruleType = e.ruleType).map Result.lamp) ≠ [] :=
    List.ne_nil_of_mem (List.mem_map_of_mem (List.mem_filter.mpr ⟨he, by simp⟩))
  have greatest := Lamp.foldl_max_isGreatest some
  rw [finish_lamp, finish_ruleType, bucketOf_ruleType, bucketOf, foldl_absorb_lamp]
  have types : {a | ∃ s ∈ entries, s.ruleType = e.ruleType ∧ s.lamp = a} =
      {a | a ∈ (entries.filter fun s => s.ruleType = e.ruleType).map Result.lamp} := by
    ext a
    simp [and_assoc]
  rw [types]
  exact greatest

end Consolidation
end RuncardReview
