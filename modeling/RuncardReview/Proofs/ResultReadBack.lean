import RuncardReview.Proofs.ConsolidationEvidence
import RuncardReview.Proofs.JsonReadBack
import RuncardReview.Proofs.PlainEvidence
import RuncardReview.Records

/-!
# Which results of a runcard are read back

JSON has no number for a double that is not finite, and the only doubles in the results are the
counts of the wafers.  So the results are read back exactly if no check has come upon a count that
is not finite.

For one half of this such a count must not be covered up where results are consolidated.  A group
may have any name, so the keys of two groups may coincide.  But all results on the counts of a runcard
have the same counts, and no two of their keys end in the same character: whatever is written over a
count is the count itself.

**Results.**
* `Consolidation.get?_bucketOf`: when a value stands in the gathered evidence.
* `get?_bucketOf_count`: a count does.
* `ofRuncard_readsBack_iff`: when the results of a runcard are read back.
* `unread_of_infinite_count`: some that are not.
-/

namespace RuncardReview

open Number

/-! ## Consolidated evidence -/

namespace Consolidation

variable {entries : List Result} {t : String}

theorem all_bucketOf {P : Value → Prop} (all : ∀ r ∈ entries, r.detail.All P) :
    (bucketOf entries t).detail.All P := by
  intro e he
  rw [bucketOf_detail] at he
  obtain ⟨r, hr, left⟩ := List.mem_flatMap.mp (Entries.mem_of_mem_ofList he)
  obtain ⟨k, -, entry, -⟩ := mem_evidence.mp left
  exact (all r (List.mem_filter.mp hr).1).of_get? entry

/-- Nothing is added to the evidence but lists of group names. -/
theorem all_consolidate {P : Value → Prop} (all : ∀ r ∈ entries, r.detail.All P)
    (lists : ∀ ss, P (.texts ss)) :
    ∀ r ∈ consolidate entries, r.detail.All P := by
  intro r hr
  rw [consolidate_eq_map] at hr
  obtain ⟨t, -, rfl⟩ := List.mem_map.mp hr
  have gathered : (bucketOf entries t).detail.All P := all_bucketOf all
  unfold Bucket.finish
  split
  · exact gathered
  · exact gathered.insert (lists _) _

/-- A value stands in the gathered evidence if all that is written under its key is this value. -/
theorem get?_bucketOf {key k : String} {value : Value} {r : Result} (member : r ∈ entries)
    (type : r.ruleType = t) (other : k ≠ groupKey) (entry : r.detail.get? k = some value)
    (merged : mergedKey (tag? r) k = key)
    (agree : ∀ s ∈ entries, s.ruleType = t → ∀ j w, j ≠ groupKey → s.detail.get? j = some w →
      mergedKey (tag? s) j = key → w = value) :
    (bucketOf entries t).detail.get? key = some value := by
  rw [bucketOf_detail]
  refine Entries.get?_foldl_of_agree (fun e he same => ?_) (Or.inl ?_)
  · obtain ⟨s, hs, left⟩ := List.mem_flatMap.mp he
    obtain ⟨filed, ofType⟩ := List.mem_filter.mp hs
    obtain ⟨j, other', entry', merged'⟩ := mem_evidence.mp left
    exact agree s filed (of_decide_eq_true ofType) j e.2 other' entry' (merged'.trans same)
  · refine List.mem_flatMap.mpr ⟨r, List.mem_filter.mpr ⟨member, decide_eq_true type⟩, ?_⟩
    exact mem_evidence.mpr ⟨k, other, entry, merged⟩

theorem getLast?_mergedKey (tag : Option String) {k : String} (some : k ≠ "") :
    (mergedKey tag k).toList.getLast? = k.toList.getLast? := by
  have chars : k.toList ≠ [] := fun e => some (String.toList_eq_nil_iff.mp e)
  cases tag with
  | none => rfl
  | some name =>
      have parts : (name ++ "_" ++ k).toList = (name ++ "_").toList ++ k.toList :=
        String.toList_append
      rw [mergedKey, parts, List.getLast?_append_of_ne_nil _ chars]

/-- The keys that may stand in a result on the wafer counts. -/
def waferKeys : List String :=
  ["uniqueWaferCount", "waferQty", "msg", repeatedGroupsKey]

/-- No two of these keys end in the same character, so they stay apart behind any names. -/
theorem eq_of_mergedKey_eq {tag tag' : Option String} {j k : String} (hj : j ∈ waferKeys)
    (hk : k ∈ waferKeys) (same : mergedKey tag j = mergedKey tag' k) :
    j = k := by
  have some : ∀ k ∈ waferKeys, k ≠ "" := by decide
  have last := congrArg (fun s => s.toList.getLast?) same
  simp only [getLast?_mergedKey _ (some j hj), getLast?_mergedKey _ (some k hk)] at last
  have apart : ∀ j ∈ waferKeys, ∀ k ∈ waferKeys, j.toList.getLast? = k.toList.getLast? → j = k := by
    decide
  exact apart j hj k hk last

end Consolidation

/-! ## The results of a runcard -/

namespace Evaluation

open Consolidation

section Conditions

variable {groups : List Group} {runcard : Runcard} {source : Source} {c : Condition}
variable {unique quantity : Float}

/-- The wafer counts are looked at in a condition: a group that it meets has a rule of them, which
passes the gates. -/
def CountsWafers (groups : List Group) (runcard : Runcard) (c : Condition) : Prop :=
  ∃ g ∈ metBy groups c, ∃ rule ∈ g.rules, rule.ruleType = "WaferCondition" ∧
    Check.skipReason? WaferCondition.check.needsSettings ⟨c, runcard, rule⟩ = none

/-- All results on the wafer counts of a runcard note the same under the same key. -/
theorem notes_of_mem_tagged
    (read : WaferCondition.numbers? source runcard.id = some (unique, quantity)) {r : Result}
    (member : r ∈ tagged Registry.builtin runcard groups source c)
    (type : r.ruleType = "WaferCondition") {k : String} {value : Value} (other : k ≠ groupKey)
    (entry : r.detail.get? k = some value) :
    k = "msg" ∨ WaferCondition.Notes unique quantity k value := by
  obtain ⟨g, -, member⟩ := List.mem_flatMap.mp member
  obtain ⟨rule, -, rfl⟩ := List.mem_map.mp member
  have ofType := (Registry.builtin.dispatch_ends ⟨c, runcard, rule⟩).run source
  rw [get?_note_groupKey other, Registry.dispatch_wafer (ofType.symm.trans type) read] at entry
  split at entry
  · rw [Verdict.skip, Verdict.get?_note] at entry
    split at entry
    · rename_i here
      exact Or.inl here.symm
    · cases entry
  · exact Or.inr (WaferCondition.get?_compare.mp entry)

/-- A count that is compared stands in the gathered evidence, under the name of the group or of
another one that notes the same. -/
theorem get?_bucketOf_count
    (read : WaferCondition.numbers? source runcard.id = some (unique, quantity))
    (counts : CountsWafers groups runcard c) {k : String} {value : Value}
    (noted : WaferCondition.Notes unique quantity k value) :
    ∃ key, key ≠ repeatedGroupsKey ∧
      (bucketOf (tagged Registry.builtin runcard groups source c) "WaferCondition").detail.get?
        key = some value := by
  obtain ⟨g, met, rule, holds, type, passes⟩ := counts
  have keys : ∀ {j w}, WaferCondition.Notes unique quantity j w →
      j ∈ waferKeys ∧ j ≠ groupKey ∧ j ≠ repeatedGroupsKey ∧ j ≠ "msg" := by
    rintro j w (⟨⟩ | ⟨⟩) <;> decide
  obtain ⟨inKeys, other, notList, notMsg⟩ := keys noted
  let r := (Registry.builtin.dispatch ⟨c, runcard, rule⟩).run source
  have entry : (r.note groupKey (.text g.name)).detail.get? k = some value := by
    rw [get?_note_groupKey other, Registry.dispatch_wafer type read, passes]
    exact WaferCondition.get?_compare.mpr noted
  have filed : r.ruleType = rule.ruleType :=
    (Registry.builtin.dispatch_ends ⟨c, runcard, rule⟩).run source
  have member : r.note groupKey (.text g.name) ∈ tagged Registry.builtin runcard groups source c :=
    List.mem_flatMap.mpr ⟨g, met, List.mem_map_of_mem holds⟩
  refine ⟨_, fun same => ?_, get?_bucketOf member (filed.trans type) other entry rfl ?_⟩
  · -- The list of groups is a key without a name in front of it.
    have bare : mergedKey none repeatedGroupsKey = repeatedGroupsKey := rfl
    exact notList (eq_of_mergedKey_eq inKeys (by decide) (same.trans bare.symm))
  · intro s hs ofType j w otherGroup found merged
    rcases notes_of_mem_tagged read hs ofType otherGroup found with rfl | noted'
    · exact absurd (eq_of_mergedKey_eq (by decide) inKeys merged).symm notMsg
    · -- Another group has written under this key, so it is the same count, and its value is too.
      obtain rfl := eq_of_mergedKey_eq (keys noted').1 inKeys merged
      have stands := WaferCondition.get?_compare.mpr noted
      exact Option.some.inj ((WaferCondition.get?_compare.mpr noted').symm.trans stands)

theorem finite_iff_results (result : RuncardResult) :
    (∀ x ∈ result.floats, isFinite x = true) ↔
      ∀ e ∈ result.conditions, ∀ r ∈ e.results, r.detail.All Value.Finite := by
  simp only [RuncardResult.floats, ConditionResult.floats, Result.floats, List.mem_flatMap,
    ← Entries.finite_iff]
  constructor
  · intro h e he r hr x hx
    exact h x ⟨e, he, r, hr, hx⟩
  · rintro h x ⟨e, he, r, hr, hx⟩
    exact h e he r hr x hx

/-- The counts that are looked at in a condition are finite if its results have no others. -/
theorem finite_of_results
    (finite : ∀ r ∈ ((ofCondition Registry.builtin runcard
      (ConditionMapping.ofCondition groups c)).run source).results, r.detail.All Value.Finite)
    (counts : CountsWafers groups runcard c)
    (read : WaferCondition.numbers? source runcard.id = some (unique, quantity)) :
    isFinite unique = true ∧ isFinite quantity = true := by
  have count : ∀ {k x}, WaferCondition.Notes unique quantity k (.float x) → isFinite x = true := by
    intro k x noted
    obtain ⟨key, notList, stands⟩ := get?_bucketOf_count read counts noted
    obtain ⟨g, met, rule, holds, type, -⟩ := counts
    have result : ((ofCondition Registry.builtin runcard
        (ConditionMapping.ofCondition groups c)).run source).result? rule.ruleType = some _ :=
      result?_of_met met holds
    rw [type] at result
    have all := finite _ (List.mem_of_find?_eq_some result)
    exact all.of_get? ((get?_finish _ notList).trans stands) x (List.mem_singleton_self x)
  exact ⟨count .unique, count .quantity⟩

/-- The results of a condition have no doubles but finite ones if the counts are finite, in case
they are looked at. -/
theorem finite_results
    (finite : CountsWafers groups runcard c → ∀ unique quantity,
      WaferCondition.numbers? source runcard.id = some (unique, quantity) →
        isFinite unique = true ∧ isFinite quantity = true) :
    ∀ r ∈ ((ofCondition Registry.builtin runcard (ConditionMapping.ofCondition groups c)).run
      source).results, r.detail.All Value.Finite := by
  have dispatched : ∀ r ∈ tagged Registry.builtin runcard groups source c,
      r.detail.All Value.Finite := by
    intro r hr
    obtain ⟨g, met, hr⟩ := List.mem_flatMap.mp hr
    obtain ⟨rule, holds, rfl⟩ := List.mem_map.mp hr
    refine Entries.All.insert ?_ (Value.plain_text g.name).finite groupKey
    rcases Registry.dispatch_cases ⟨c, runcard, rule⟩ source with
      plain | ⟨type, passes, u, q, read, compared⟩
    · exact fun e he => (plain e he).finite
    · obtain ⟨hu, hq⟩ := finite ⟨g, met, rule, holds, type, passes⟩ u q read
      rw [compared]
      exact WaferCondition.finite_compare hu hq
  rw [ofCondition, Inquiry.run_map]
  simp only [run_results]
  split
  · intro r hr
    rw [List.mem_singleton.mp hr]
    exact Entries.all_empty.insert (Value.plain_text _).finite "recipeId"
  · exact all_consolidate dispatched fun ss => (Value.plain_texts ss).finite

/-- The results that the library's checks come to are read back from JSON as they were written, if
and only if the counts of the runcard's wafers are finite wherever they are looked at. -/
theorem ofRuncard_readsBack_iff (runcard : Runcard) (conditions : List Condition)
    (groups : List Group) (source : Source) :
    let result := (ofRuncard Registry.builtin runcard conditions groups).run source
    RuncardResult.ofJson? result.toJson = some result ↔
      ∀ c ∈ conditions, CountsWafers groups runcard c → ∀ unique quantity,
        WaferCondition.numbers? source runcard.id = some (unique, quantity) →
          isFinite unique = true ∧ isFinite quantity = true := by
  intro result
  rw [RuncardResult.readsBack.eq_some_iff, finite_iff_results]
  by_cases any : groups = []
  · have unconsidered : result.conditions = [] := by
      show ((ofRuncard Registry.builtin runcard conditions groups).run source).conditions = []
      rw [ofRuncard_eq, considered, if_pos any]
      rfl
    have unmet : ∀ c, ¬CountsWafers groups runcard c := by
      rintro c ⟨g, met, -⟩
      rw [any] at met
      cases met
    simp [unconsidered, unmet]
  · rw [run_ofRuncard_conditions any, List.forall_mem_map]
    refine forall₂_congr fun c _ => ⟨fun finite counts u q read => ?_, finite_results⟩
    exact finite_of_results finite counts read

end Conditions

/-! ## A count that is not finite -/

namespace Infinite

def runcard : Runcard :=
  { Runcard.ofId "RC-1" with part := some "TM1" }

def group : Group :=
  ⟨"A", [⟨"T1", ""⟩], [⟨"WaferCondition", ["Prod"], none⟩]⟩

def records : Records :=
  { Records.empty with wafers := [("RC-1", ⟨"inf", "25"⟩)] }

def result : RuncardResult :=
  (ofRuncard Registry.builtin runcard [⟨"C1", "T1", "R"⟩] [group]).run records.source

/-- The text of the result, in which the count is missing. -/
def text : String :=
  "\x7b\"runcardId\":\"RC-1\",\"conditions\":[\x7b\"condition\":\"C1\",\"toolChambers\":[\"T1\"],"
    ++ "\"results\":[\x7b\"ruleType\":\"WaferCondition\",\"result\":3,\"detail\":"
    ++ "\x7b\"A_uniqueWaferCount\":null,\"A_waferQty\":25.0,\"repeatedGroups\":[\"A\"]\x7d\x7d]"
    ++ "\x7d]\x7d"

end Infinite

/-- The count is compared as any other, and what is written in its place is not read. -/
theorem unread_of_infinite_count :
    Infinite.result.toJson.write = Infinite.text ∧
      RuncardResult.ofJson? Infinite.result.toJson ≠ some Infinite.result := by
  have unread : (RuncardResult.ofJson? Infinite.result.toJson).isNone = true := by decide +kernel
  refine ⟨by decide +kernel, fun same => ?_⟩
  rw [same] at unread
  cases unread

end Evaluation
end RuncardReview
