import Mathlib.Data.List.Basic
import RuncardReview.Proofs.ConsolidationBuckets

/-!
# The detail of a consolidated result

All evidence on one rule type goes into one collection, result after result, each key behind
the name of its group.  What stands under a key in the end is what the last result of the type
that has the key has written there.

**Results.**
* `bucketOf_detail`: the collection of a rule type, as one list of entries.
* `get?_bucketOf_iff`: what stands under a key.
* `bucketOf_groups`: the groups that are listed.
* `finish_detail`: the list of groups goes over whatever stands under its key.
-/

namespace RuncardReview

/-- An item of a longer list is the new one at the end, or it stands in the list as it was. -/
theorem split_of_concat {α : Type} {items front back : List α} {e d : α}
    (split : items ++ [e] = front ++ d :: back) :
    (items = front ∧ e = d) ∨ ∃ back', items = front ++ d :: back' ∧ back = back' ++ [e] := by
  rcases List.eq_nil_or_concat' back with rfl | ⟨back', s, rfl⟩
  · exact Or.inl (by simpa using split)
  · have split : items ++ [e] = (front ++ d :: back') ++ [s] := by simpa using split
    obtain ⟨rfl, last⟩ := List.append_inj' split rfl
    exact Or.inr ⟨back', rfl, by rw [List.singleton_inj.mp last]⟩

namespace Consolidation

open Distinct (firsts addAllNew)

variable {r s : Result} {entries : List Result} {ruleType g k key m : String} {v w : Value}

/-! ## What a result contributes -/

/-- The result says that it comes from the group, by a text that is not empty. -/
def Tagged (r : Result) (g : String) : Prop :=
  r.detail.get? groupKey = some (.text g) ∧ g ≠ ""

theorem tag?_eq_some_iff :
    tag? r = some g ↔ Tagged r g := by
  unfold tag? Tagged
  split
  · rename_i name found
    rw [found]
    by_cases empty : name = ""
    · subst empty
      simp
    · simp only [if_neg empty, Option.some.injEq, Value.text.injEq]
      constructor
      · rintro rfl
        exact ⟨rfl, empty⟩
      · exact And.left
  · rename_i other
    refine ⟨nofun, fun tagged => absurd tagged.1 (other g)⟩

/-- One of the entries of the result has this value, and its key becomes this one: with the
name of the group in front if the result names one, and as it is otherwise.  The entry that
names the group is left out. -/
def Contributes (r : Result) (m : String) (v : Value) : Prop :=
  ∃ k, k ≠ groupKey ∧ r.detail.get? k = some v ∧
    ((∃ g, Tagged r g ∧ m = g ++ "_" ++ k) ∨ (∀ g, ¬Tagged r g) ∧ m = k)

theorem mergedKey_eq_iff :
    mergedKey (tag? r) k = m ↔
      (∃ g, Tagged r g ∧ m = g ++ "_" ++ k) ∨ (∀ g, ¬Tagged r g) ∧ m = k := by
  simp only [← tag?_eq_some_iff]
  cases tag? r with
  | none => simp [mergedKey, eq_comm]
  | some g => simp [mergedKey, eq_comm]

theorem mergedKey_injective {tag : Option String} {j : String}
    (same : mergedKey tag k = mergedKey tag j) : k = j := by
  cases tag with
  | none => exact same
  | some g => simpa [mergedKey] using same

/-- What a result adds to the evidence on its rule type. -/
def evidence (r : Result) : List (String × Value) :=
  (r.detail.erase groupKey).toList.map fun e => (mergedKey (tag? r) e.1, e.2)

theorem mem_evidence {e : String × Value} :
    e ∈ evidence r ↔
      ∃ k, k ≠ groupKey ∧ r.detail.get? k = some e.2 ∧ mergedKey (tag? r) k = e.1 := by
  have kept : ∀ k v, (k, v) ∈ (r.detail.erase groupKey).toList ↔
      k ≠ groupKey ∧ r.detail.get? k = some v := by
    intro k v
    rw [← Entries.get?_eq_some_iff, Entries.get?_erase]
    by_cases own : groupKey = k
    · simp [own]
    · simp [own, Ne.symm own]
  simp only [evidence, List.mem_map, Prod.exists, kept]
  constructor
  · rintro ⟨k, v, ⟨other, entry⟩, rfl⟩
    exact ⟨k, other, entry, rfl⟩
  · rintro ⟨k, other, entry, merged⟩
    exact ⟨k, e.2, ⟨other, entry⟩, by rw [merged]⟩

theorem mem_evidence_iff_contributes :
    (m, v) ∈ evidence r ↔ Contributes r m v := by
  rw [mem_evidence]
  exact exists_congr fun k => and_congr_right fun _ => and_congr_right fun _ => mergedKey_eq_iff

theorem Contributes.mem_keys (here : Contributes r m v) :
    m ∈ (evidence r).map Prod.fst :=
  List.mem_map.mpr ⟨(m, v), mem_evidence_iff_contributes.mpr here, rfl⟩

/-- A result contributes one value under a key at most. -/
theorem Contributes.unique (first : Contributes r m v) (second : Contributes r m w) :
    v = w := by
  obtain ⟨k, -, entry, merged⟩ := mem_evidence.mp (mem_evidence_iff_contributes.mpr first)
  obtain ⟨j, -, entry', merged'⟩ := mem_evidence.mp (mem_evidence_iff_contributes.mpr second)
  obtain rfl : k = j := mergedKey_injective (merged.trans merged'.symm)
  exact Option.some.inj (entry.symm.trans entry')

/-- A key with a group in front of it has an underscore. -/
theorem merged_ne_of_plain (plain : '_' ∉ m.toList) (g k : String) :
    g ++ "_" ++ k ≠ m := by
  rintro rfl
  exact plain (by simp)

theorem merged_ne_repeatedGroupsKey (g k : String) :
    g ++ "_" ++ k ≠ repeatedGroupsKey :=
  merged_ne_of_plain (by decide) g k

theorem not_contributes_groupKey :
    ¬Contributes r groupKey v := by
  rintro ⟨k, other, -, ⟨g, -, merged⟩ | ⟨-, merged⟩⟩
  · exact merged_ne_of_plain (by decide) g k merged.symm
  · exact other merged.symm

/-! ## What is gathered -/

theorem absorb_detail (b : Bucket) (r : Result) :
    (b.absorb r).detail = (evidence r).foldl (fun d e => d.insert e.1 e.2) b.detail := by
  rw [evidence, List.foldl_map]
  rfl

theorem foldl_absorb_detail (entries : List Result) (b : Bucket) :
    (entries.foldl Bucket.absorb b).detail =
      (entries.flatMap evidence).foldl (fun d e => d.insert e.1 e.2) b.detail := by
  induction entries generalizing b with
  | nil => rfl
  | cons r entries ih =>
      rw [List.foldl_cons, ih, List.flatMap_cons, List.foldl_append, absorb_detail]

theorem bucketOf_detail (entries : List Result) (ruleType : String) :
    (bucketOf entries ruleType).detail =
      Entries.ofList ((entries.filter fun r => r.ruleType = ruleType).flatMap evidence) :=
  foldl_absorb_detail _ _

theorem get?_absorb_of_contributes {b : Bucket} (here : Contributes r m v) :
    (b.absorb r).detail.get? m = some v := by
  rw [absorb_detail]
  refine Entries.get?_foldl_of_agree ?_ (Or.inl (mem_evidence_iff_contributes.mpr here))
  rintro ⟨j, w⟩ member rfl
  exact (mem_evidence_iff_contributes.mp member).unique here

theorem get?_absorb_of_forall_not {b : Bucket} (none : ∀ w, ¬Contributes r m w) :
    (b.absorb r).detail.get? m = b.detail.get? m := by
  rw [absorb_detail]
  refine Entries.get?_foldl_of_forall_ne ?_
  rintro ⟨j, w⟩ member rfl
  exact none w (mem_evidence_iff_contributes.mp member)

/-- The value is that of the last result of the type that contributes to the key. -/
def LastContribution (entries : List Result) (ruleType m : String) (v : Value) : Prop :=
  ∃ front r back, entries = front ++ r :: back ∧ r.ruleType = ruleType ∧ Contributes r m v ∧
    ∀ s ∈ back, s.ruleType = ruleType → ∀ w, ¬Contributes s m w

theorem lastContribution_concat :
    LastContribution (entries ++ [r]) ruleType m v ↔
      (r.ruleType = ruleType ∧ Contributes r m v) ∨
        (r.ruleType = ruleType → ∀ w, ¬Contributes r m w) ∧
          LastContribution entries ruleType m v := by
  constructor
  · rintro ⟨front, e, back, split, type, here, later⟩
    rcases split_of_concat split with ⟨-, rfl⟩ | ⟨back', rfl, rfl⟩
    · exact Or.inl ⟨type, here⟩
    · exact Or.inr ⟨later r (by simp), front, e, back', rfl, type, here,
        fun u hu => later u (List.mem_append_left _ hu)⟩
  · rintro (⟨type, here⟩ | ⟨none, front, e, back, rfl, type, here, later⟩)
    · exact ⟨entries, r, [], rfl, type, here, by simp⟩
    · refine ⟨front, e, back ++ [r], by simp, type, here, fun s hs => ?_⟩
      rcases List.mem_append.mp hs with hs | hs
      · exact later s hs
      · rw [List.mem_singleton.mp hs]
        exact none

/-- Under a key stands what was contributed last. -/
theorem get?_bucketOf_iff :
    (bucketOf entries ruleType).detail.get? m = some v ↔
      LastContribution entries ruleType m v := by
  induction entries using List.reverseRecOn with
  | nil =>
      refine ⟨nofun, ?_⟩
      rintro ⟨front, r, back, split, -⟩
      simp at split
  | append_singleton entries r ih =>
      rw [bucketOf_concat, lastContribution_concat]
      by_cases type : r.ruleType = ruleType
      · rw [if_pos type]
        by_cases some : ∃ w, Contributes r m w
        · obtain ⟨w, here⟩ := some
          rw [get?_absorb_of_contributes here, Option.some.injEq]
          constructor
          · rintro rfl
            exact Or.inl ⟨type, here⟩
          · rintro (⟨-, here'⟩ | ⟨none, -⟩)
            · exact here.unique here'
            · exact absurd here (none type w)
        · have none : ∀ w, ¬Contributes r m w := not_exists.mp some
          simp [get?_absorb_of_forall_not none, ih, none]
      · simp [type, ih]

/-- The groups that the results of a type name, in order. -/
def tags (entries : List Result) (ruleType : String) : List String :=
  (entries.filter fun r => r.ruleType = ruleType).filterMap tag?

theorem mem_tags :
    g ∈ tags entries ruleType ↔ ∃ r ∈ entries, r.ruleType = ruleType ∧ Tagged r g := by
  simp [tags, List.mem_filterMap, tag?_eq_some_iff, and_assoc]

theorem foldl_absorb_groups (entries : List Result) (b : Bucket) :
    (entries.foldl Bucket.absorb b).groups = addAllNew b.groups (entries.filterMap tag?) := by
  induction entries generalizing b with
  | nil => rfl
  | cons r entries ih =>
      rw [List.foldl_cons, ih, Bucket.absorb]
      cases named : tag? r with
      | none => simp [named, addAllNew]
      | some g => simp [named, addAllNew]

theorem bucketOf_groups (entries : List Result) (ruleType : String) :
    (bucketOf entries ruleType).groups = firsts (tags entries ruleType) :=
  foldl_absorb_groups _ _

/-! ## The finished result -/

theorem finish_detail (b : Bucket) :
    b.finish.detail =
      if b.groups = [] then b.detail else b.detail.insert repeatedGroupsKey (.texts b.groups) := by
  simp only [Bucket.finish, List.isEmpty_iff]
  split <;> rfl

/-- The list of groups is added under a key of its own. -/
theorem get?_finish (b : Bucket) (other : key ≠ repeatedGroupsKey) :
    b.finish.detail.get? key = b.detail.get? key := by
  rw [finish_detail]
  split
  · rfl
  · exact (Entries.get?_insert _ _ _ _).trans (if_neg other.symm)

theorem eq_finish_of_mem (member : r ∈ consolidate entries) :
    r = (bucketOf entries r.ruleType).finish := by
  rw [consolidate_eq_map] at member
  obtain ⟨t, -, rfl⟩ := List.mem_map.mp member
  rw [finish_ruleType, bucketOf_ruleType]

theorem find?_consolidate (filed : ruleType ∈ entries.map Result.ruleType) :
    (consolidate entries).find? (fun r => r.ruleType = ruleType) =
      some (bucketOf entries ruleType).finish := by
  have among : ruleType ∈ (consolidate entries).map Result.ruleType := by
    rw [consolidate_ruleTypes]
    exact Distinct.mem_firsts.mpr filed
  obtain ⟨r, member, type⟩ := List.mem_map.mp among
  cases found : (consolidate entries).find? fun r => r.ruleType = ruleType with
  | none => exact absurd type (by simpa using List.find?_eq_none.mp found r member)
  | some s =>
      have type : s.ruleType = ruleType := by simpa using List.find?_some found
      rw [eq_finish_of_mem (List.mem_of_find?_eq_some found), type]

end Consolidation
end RuncardReview
