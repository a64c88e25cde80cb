import Mathlib.Data.List.Nodup
import Mathlib.Data.List.Perm.Lattice
import RuncardReview.Proofs.ConsolidationExact

/-!
# The order of the results, and consolidating again

The rule types, the lamps and the groups that are listed do not depend on the order in which
the results come.  Evidence does where two results of a type write under one key.  Where no
two do, the order shows in the list of groups alone.

Consolidated results have a rule type each and name no group, and such results are left as
they are when they are consolidated again.

**Results.**
* `lastContribution_iff_of_apart`: without two writers the last one is the only one.
* `consolidate_perm`: the same results in another order.
* `consolidate_of_unmarked`: results that consolidation leaves alone.
* `consolidate_consolidate`: a second consolidation changes nothing.
-/

namespace RuncardReview

theorem Distinct.firsts_perm {α : Type} [DecidableEq α] {xs ys : List α} (order : xs.Perm ys) :
    (firsts xs).Perm (firsts ys) := by
  refine (List.perm_ext_iff_of_nodup (nodup_firsts xs) (nodup_firsts ys)).mpr fun x => ?_
  rw [mem_firsts, mem_firsts, order.mem_iff]

namespace Consolidation

open Distinct (firsts)

variable {r s : Result} {entries others : List Result} {ruleType m : String} {v : Value}

/-! ## Results in another order -/

/-- No two results of the type contribute under one key. -/
def Apart (entries : List Result) (ruleType : String) : Prop :=
  (entries.filter fun r => r.ruleType = ruleType).Pairwise fun r s =>
    ∀ m v w, Contributes r m v → ¬Contributes s m w

theorem Apart.perm (apart : Apart entries ruleType) (order : entries.Perm others) :
    Apart others ruleType := by
  refine ((order.filter _).pairwise_iff ?_).mp apart
  exact fun none m v w first second => none m w v second first

/-- Results are apart if the keys of all their evidence are distinct. -/
theorem apart_of_nodup
    (distinct : (((entries.filter fun r => r.ruleType = ruleType).flatMap evidence).map
      Prod.fst).Nodup) :
    Apart entries ruleType := by
  rw [List.map_flatMap, List.nodup_flatMap] at distinct
  exact distinct.2.imp fun disjoint m v w first second =>
    disjoint first.mem_keys second.mem_keys

theorem lastContribution_iff_of_apart (apart : Apart entries ruleType) :
    LastContribution entries ruleType m v ↔
      ∃ r ∈ entries, r.ruleType = ruleType ∧ Contributes r m v := by
  constructor
  · rintro ⟨front, r, back, rfl, type, here, -⟩
    exact ⟨r, by simp, type, here⟩
  · rintro ⟨r, member, type, here⟩
    obtain ⟨front, back, rfl⟩ := List.append_of_mem member
    refine ⟨front, r, back, rfl, type, here, fun s hs ofType w there => ?_⟩
    rw [Apart, List.filter_append, List.filter_cons_of_pos (by simpa using type)] at apart
    have later := (List.pairwise_cons.mp (List.pairwise_append.mp apart).2.1).1 s
      (List.mem_filter.mpr ⟨hs, by simpa using ofType⟩)
    exact later m v w here there

theorem bucketOf_detail_perm (order : entries.Perm others) (apart : Apart entries ruleType) :
    (bucketOf others ruleType).detail = (bucketOf entries ruleType).detail := by
  refine Entries.ext_get? fun m => Option.ext fun v => ?_
  rw [get?_bucketOf_iff, get?_bucketOf_iff, lastContribution_iff_of_apart apart,
    lastContribution_iff_of_apart (apart.perm order)]
  simp only [order.mem_iff]

theorem tags_perm (order : entries.Perm others) (ruleType : String) :
    (tags entries ruleType).Perm (tags others ruleType) :=
  (order.filter _).filterMap tag?

theorem tags_eq_nil_iff_of_perm (order : entries.Perm others) :
    tags others ruleType = [] ↔ tags entries ruleType = [] := by
  rw [← List.length_eq_zero_iff, ← List.length_eq_zero_iff, (tags_perm order ruleType).length_eq]

theorem lamp_eq_of_perm (order : entries.Perm others) (hr : r ∈ consolidate entries)
    (hs : s ∈ consolidate others) (type : s.ruleType = r.ruleType) :
    s.lamp = r.lamp := by
  have greatest := consolidate_lamp_isGreatest hs
  simp only [type, ← order.mem_iff] at greatest
  exact greatest.unique (consolidate_lamp_isGreatest hr)

/-- The same results in another order come to the same rule types, with the same lamps and the
same groups.  If no two results of a type contribute under one key, then its detail is the
same but for the order in which the groups are listed. -/
theorem consolidate_perm (entries others : List Result) (order : entries.Perm others) :
    ((consolidate entries).map Result.ruleType).Perm
        ((consolidate others).map Result.ruleType) ∧
      ∀ r ∈ consolidate entries, ∀ s ∈ consolidate others, s.ruleType = r.ruleType →
        s.lamp = r.lamp ∧
        ((∃ e ∈ entries, e.ruleType = r.ruleType ∧ ∃ g, Tagged e g) →
          ∃ gs hs, gs.Perm hs ∧ r.detail.get? "repeatedGroups" = some (.texts gs) ∧
            s.detail.get? "repeatedGroups" = some (.texts hs)) ∧
        (Apart entries r.ruleType →
          s.detail = r.detail ∨
            ∃ gs hs, gs.Perm hs ∧ r.detail.get? "repeatedGroups" = some (.texts gs) ∧
              s.detail = r.detail.insert "repeatedGroups" (.texts hs)) := by
  have types : ((consolidate entries).map Result.ruleType).Perm
      ((consolidate others).map Result.ruleType) := by
    rw [consolidate_ruleTypes, consolidate_ruleTypes]
    exact Distinct.firsts_perm (order.map _)
  refine ⟨types, fun r hr s hs type => ⟨lamp_eq_of_perm order hr hs type, ?_, fun apart => ?_⟩⟩
  · rintro ⟨e, he, ofType, g, tagged⟩
    have some : tags entries r.ruleType ≠ [] :=
      List.ne_nil_of_mem (mem_tags.mpr ⟨e, he, ofType, tagged⟩)
    have some' : tags others s.ruleType ≠ [] := by
      rw [type]
      exact mt (tags_eq_nil_iff_of_perm order).mp some
    have listed := get?_repeatedGroupsKey_of_mem hs some'
    rw [type] at listed
    exact ⟨_, _, Distinct.firsts_perm (tags_perm order r.ruleType),
      get?_repeatedGroupsKey_of_mem hr some, listed⟩
  · have detail := consolidate_detail hs
    rw [type, bucketOf_detail_perm order apart] at detail
    by_cases none : tags entries r.ruleType = []
    · left
      rw [detail, consolidate_detail hr, if_pos none,
        if_pos ((tags_eq_nil_iff_of_perm order).mpr none)]
    · right
      refine ⟨_, _, Distinct.firsts_perm (tags_perm order r.ruleType),
        get?_repeatedGroupsKey_of_mem hr none, ?_⟩
      rw [detail, consolidate_detail hr, if_neg none,
        if_neg (mt (tags_eq_nil_iff_of_perm order).mp none)]
      exact (Entries.insert_insert _ _ _ _).symm

namespace Reordered

def first : Result :=
  ⟨"X", .pass, Entries.ofList [("group", .text "A"), ("x", .bool true)]⟩

def second : Result :=
  ⟨"X", .fail, Entries.ofList [("group", .text "B"), ("x", .bool false)]⟩

theorem exists_consolidate {l : List Result} (types : l.map Result.ruleType = ["X", "X"]) :
    ∃ r ∈ consolidate l, r.ruleType = "X" := by
  refine List.mem_map.mp ?_
  rw [consolidate_ruleTypes, types]
  decide

end Reordered

open Reordered in
/-- Two groups with evidence under keys of their own. -/
theorem consolidate_perm_of_two_groups :
    [first, second].Perm [second, first] ∧ Apart [first, second] "X" ∧
      ∃ r ∈ consolidate [first, second], ∃ s ∈ consolidate [second, first],
        r.ruleType = "X" ∧ s.ruleType = r.ruleType ∧ s.lamp = r.lamp ∧
        (∃ gs hs, gs.Perm hs ∧ r.detail.get? "repeatedGroups" = some (.texts gs) ∧
          s.detail.get? "repeatedGroups" = some (.texts hs)) ∧
        (s.detail = r.detail ∨
          ∃ gs hs, gs.Perm hs ∧ r.detail.get? "repeatedGroups" = some (.texts gs) ∧
            s.detail = r.detail.insert "repeatedGroups" (.texts hs)) := by
  have order : [first, second].Perm [second, first] := .swap _ _ _
  have apart : Apart [first, second] "X" := by
    have keys : (([first, second].filter fun r => r.ruleType = "X").flatMap evidence).map
        Prod.fst = ["A_x", "B_x"] := rfl
    refine apart_of_nodup ?_
    rw [keys]
    decide
  obtain ⟨r, hr, type⟩ := exists_consolidate (l := [first, second]) rfl
  obtain ⟨s, hs, type'⟩ := exists_consolidate (l := [second, first]) rfl
  have same : s.ruleType = r.ruleType := type'.trans type.symm
  obtain ⟨lamp, groups, detail⟩ := (consolidate_perm _ _ order).2 r hr s hs same
  rw [type] at groups detail
  exact ⟨order, apart, r, hr, s, hs, type, same, lamp,
    groups ⟨first, by simp, rfl, "A", rfl, by decide⟩, detail apart⟩

/-! ## Consolidating again -/

theorem filter_ruleType_of_nodup (distinct : (entries.map Result.ruleType).Nodup)
    (member : r ∈ entries) :
    (entries.filter fun s => s.ruleType = r.ruleType) = [r] := by
  have own : ∀ s, s ∈ (entries.filter fun s => s.ruleType = r.ruleType) ↔ s ∈ [r] := by
    intro s
    rw [List.mem_filter, List.mem_singleton, decide_eq_true_eq]
    constructor
    · rintro ⟨hs, type⟩
      exact List.inj_on_of_nodup_map distinct hs member type
    · rintro rfl
      exact ⟨member, rfl⟩
  exact List.perm_singleton.mp ((List.perm_ext_iff_of_nodup (distinct.of_map.filter _)
    (List.nodup_singleton r)).mpr own)

/-- A result that names no group is all that is gathered from it. -/
theorem finish_absorb_empty (unmarked : r.detail.get? groupKey = none) :
    ((Bucket.empty r.ruleType).absorb r).finish = r := by
  have tag : tag? r = none := by
    rw [tag?, unmarked]
  have kept : r.detail.erase groupKey = r.detail := by
    refine Entries.ext_get? fun k => ?_
    rw [Entries.get?_erase]
    split
    · rename_i own
      rw [← own, unmarked]
    · rfl
  have detail : ((Bucket.empty r.ruleType).absorb r).detail = r.detail := by
    rw [absorb_detail, evidence, kept, tag]
    exact Entries.ofList_of_perm (by simp [mergedKey])
  have lamp : ((Bucket.empty r.ruleType).absorb r).lamp = r.lamp :=
    max_eq_right (Lamp.skip_le r.lamp)
  have groups : ((Bucket.empty r.ruleType).absorb r).groups = [] := by
    rw [Bucket.absorb, tag]
    rfl
  rw [Bucket.finish, groups, detail, lamp]
  rfl

/-- Results that name no group, each with a rule type of its own, stay as they are. -/
theorem consolidate_of_unmarked (distinct : (entries.map Result.ruleType).Nodup)
    (unmarked : ∀ r ∈ entries, r.detail.get? groupKey = none) :
    consolidate entries = entries := by
  rw [consolidate_eq_map, Distinct.firsts_of_nodup distinct, List.map_map]
  refine (List.map_congr_left fun r member => ?_).trans entries.map_id
  show (bucketOf entries r.ruleType).finish = r
  rw [bucketOf, filter_ruleType_of_nodup distinct member]
  exact finish_absorb_empty (unmarked r member)

/-- What comes out of a consolidation is not changed by another one. -/
theorem consolidate_consolidate (entries : List Result) :
    consolidate (consolidate entries) = consolidate entries := by
  refine consolidate_of_unmarked ?_ fun r member => get?_groupKey_of_mem member
  rw [consolidate_ruleTypes]
  exact Distinct.nodup_firsts _

end Consolidation
end RuncardReview
