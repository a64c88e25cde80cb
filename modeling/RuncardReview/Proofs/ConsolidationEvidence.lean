import Mathlib.Data.List.Nodup
import RuncardReview.Proofs.CatalogSoundness
import RuncardReview.Proofs.ConsolidationDetail
import RuncardReview.Proofs.RuleIsolation

/-!
# The evidence of a matched group

A value stands under its key, behind the name of its group, as long as no later group
leaves one under the same key.  Two groups can do so only if the name of one is the name
of the other, an underscore, and some text: that text is then part of a key of the other.

**Results.**
* `eq_or_extends`: when two groups share a key.
* `evidence_stands`: what is left of the evidence of a matched group.
* `evidence_overwritten`: a value that is lost to a later group.
-/

namespace RuncardReview

namespace Consolidation

variable {r : Result} {name key : String} {value : Value}

theorem get?_note_groupKey (other : key ≠ groupKey) :
    (r.note groupKey value).detail.get? key = r.detail.get? key :=
  (Entries.get?_insert _ _ _ _).trans (if_neg other.symm)

theorem mem_evidence_note (named : name ≠ "") {e : String × Value} :
    e ∈ evidence (r.note groupKey (.text name)) ↔
      ∃ k, k ≠ groupKey ∧ r.detail.get? k = some e.2 ∧ name ++ "_" ++ k = e.1 := by
  have tag : tag? (r.note groupKey (.text name)) = some name := by
    simp [tag?, Result.note, Entries.get?_insert, named]
  rw [mem_evidence, tag]
  refine exists_congr fun k => and_congr_right fun other => ?_
  rw [get?_note_groupKey other]
  rfl

theorem extends_of_append {g h k k' : String} {a : List Char} (front : h.toList = g.toList ++ a)
    (back : '_' :: k.toList = a ++ '_' :: k'.toList) :
    g = h ∨ ∃ s, h = g ++ "_" ++ s ∧ k = s ++ "_" ++ k' := by
  cases a with
  | nil => exact Or.inl (String.toList_inj.mp (by simpa using front.symm))
  | cons c s =>
      obtain rfl : '_' = c := (List.cons.inj back).1
      have tail : k.toList = s ++ '_' :: k'.toList := (List.cons.inj back).2
      refine Or.inr ⟨String.ofList s, String.toList_inj.mp ?_, String.toList_inj.mp ?_⟩
      · simp [front]
      · simp [tail]

/-- Two groups share a key only if they have one name, or the name of one is that of the
other, an underscore, and a text with which a key of the other begins. -/
theorem eq_or_extends {g h k k' : String} (shared : g ++ "_" ++ k = h ++ "_" ++ k') :
    g = h ∨ (∃ s, h = g ++ "_" ++ s ∧ k = s ++ "_" ++ k') ∨
      ∃ s, g = h ++ "_" ++ s ∧ k' = s ++ "_" ++ k := by
  have chars : g.toList ++ '_' :: k.toList = h.toList ++ '_' :: k'.toList := by
    simpa using congrArg String.toList shared
  rcases List.append_eq_append_iff.mp chars with ⟨a, front, back⟩ | ⟨a, front, back⟩
  · exact (extends_of_append front back).imp_right Or.inl
  · exact (extends_of_append front back).imp Eq.symm Or.inr

end Consolidation

namespace Evaluation

open Consolidation

section Matched

variable (registry : Registry) (runcard : Runcard) (source : Source)

/-- One of the rules of that type in a group has evidence with this value, under a key that
becomes this one behind the name of the group. -/
def Leaves (c : Condition) (ruleType : String) (g : Group) (key : String) (value : Value) :
    Prop :=
  ∃ rule ∈ g.rules, rule.ruleType = ruleType ∧ ∃ k, k ≠ "group" ∧
    ((registry.dispatch ⟨c, runcard, rule⟩).run source).detail.get? k = some value ∧
      g.name ++ "_" ++ k = key

variable {registry runcard source} {c : Condition} {ruleType key : String} {value value' : Value}

/-- A group with one rule of a type leaves one value under a key. -/
theorem Leaves.unique {g : Group} (single : (g.rules.map Rule.ruleType).Nodup)
    (first : Leaves registry runcard source c ruleType g key value)
    (second : Leaves registry runcard source c ruleType g key value') :
    value = value' := by
  obtain ⟨rule, member, rfl, k, -, entry, rfl⟩ := first
  obtain ⟨rule', member', type, k', -, entry', merged⟩ := second
  obtain rfl : rule' = rule := List.inj_on_of_nodup_map single member' member type
  obtain rfl : k' = k := by simpa using merged
  exact Option.some.inj (entry.symm.trans entry')

/-- The evidence on a rule type from some groups, one after the other. -/
def evidenceOf (registry : Registry) (runcard : Runcard) (source : Source) (c : Condition)
    (ruleType : String) (gs : List Group) : List (String × Value) :=
  ((gs.flatMap fun g => g.rules.map fun rule =>
    ((registry.dispatch ⟨c, runcard, rule⟩).run source).note groupKey (.text g.name)).filter
      fun r => r.ruleType = ruleType).flatMap evidence

theorem mem_evidenceOf {gs : List Group} (named : ∀ g ∈ gs, g.name ≠ "")
    {e : String × Value} :
    e ∈ evidenceOf registry runcard source c ruleType gs ↔
      ∃ g ∈ gs, Leaves registry runcard source c ruleType g e.1 e.2 := by
  have type : ∀ rule, ((registry.dispatch ⟨c, runcard, rule⟩).run source).ruleType =
      rule.ruleType := fun rule => (registry.dispatch_ends ⟨c, runcard, rule⟩).run source
  simp only [evidenceOf, List.mem_flatMap, List.mem_filter, List.mem_map, decide_eq_true_eq]
  constructor
  · rintro ⟨_, ⟨⟨g, hg, rule, member, rfl⟩, filed⟩, left⟩
    obtain ⟨k, other, entry, merged⟩ := (mem_evidence_note (named g hg)).mp left
    exact ⟨g, hg, rule, member, (type rule).symm.trans filed, k, other, entry, merged⟩
  · rintro ⟨g, hg, rule, member, filed, k, other, entry, merged⟩
    exact ⟨_, ⟨⟨g, hg, rule, member, rfl⟩, (type rule).trans filed⟩,
      (mem_evidence_note (named g hg)).mpr ⟨k, other, entry, merged⟩⟩

/-- The evidence of the groups met first is overwritten by that of the others. -/
theorem bucketOf_tagged_detail {groups before after : List Group}
    (split : metBy groups c = before ++ after) :
    (bucketOf (tagged registry runcard groups source c) ruleType).detail =
      (evidenceOf registry runcard source c ruleType after).foldl
        (fun d e => d.insert e.1 e.2)
        (Entries.ofList (evidenceOf registry runcard source c ruleType before)) := by
  rw [bucketOf_detail, tagged, split, List.flatMap_append, List.filter_append,
    List.flatMap_append, Entries.ofList, List.foldl_append]
  rfl

/-- A matched group's value stands under its key, as long as no group that is met later
leaves one there. -/
theorem get?_of_leaves {groups before after : List Group} {g : Group}
    (named : ∀ h ∈ groups, h.name ≠ "") (single : (g.rules.map Rule.ruleType).Nodup)
    (split : metBy groups c = before ++ g :: after)
    (leaves : Leaves registry runcard source c ruleType g key value)
    (last : ∀ h ∈ after, ∀ w, ¬Leaves registry runcard source c ruleType h key w) :
    (bucketOf (tagged registry runcard groups source c) ruleType).detail.get? key =
      some value := by
  have named' : ∀ h ∈ g :: after, h.name ≠ "" := by
    intro h hh
    have met : h ∈ metBy groups c := split ▸ List.mem_append_right before hh
    exact named h (List.mem_filter.mp met).1
  rw [bucketOf_tagged_detail split]
  refine Entries.get?_foldl_of_agree ?_ (Or.inl ?_)
  · rintro e he rfl
    obtain ⟨h, hh, left⟩ := (mem_evidenceOf named').mp he
    rcases List.mem_cons.mp hh with rfl | later
    · exact left.unique single leaves
    · exact absurd left (last h later _)
  · exact (mem_evidenceOf named').mpr ⟨g, List.mem_cons_self, leaves⟩

/-- The result of a condition on the rule type of a matched group. -/
theorem result?_of_met {groups : List Group} {g : Group} {rule : Rule}
    (met : g ∈ metBy groups c) (member : rule ∈ g.rules) :
    ((ofCondition registry runcard (ConditionMapping.ofCondition groups c)).run source).result?
        rule.ruleType =
      some (bucketOf (tagged registry runcard groups source c) rule.ruleType).finish := by
  have among : rule.ruleType ∈
      (tagged registry runcard groups source c).map Result.ruleType := by
    refine List.mem_map.mpr ⟨_, List.mem_flatMap.mpr ⟨g, met, List.mem_map_of_mem member⟩, ?_⟩
    exact (registry.dispatch_ends ⟨c, runcard, rule⟩).run source
  rw [ofCondition, Inquiry.run_map, ConditionResult.result?, run_results,
    if_neg (List.ne_nil_of_mem met)]
  exact find?_consolidate among

/-- Two groups that a condition meets one after the other have different names. -/
theorem name_ne_of_sublist {catalog : Catalog} {g h : Group}
    (later : [g, h].Sublist (metBy catalog.groups c)) :
    g.name ≠ h.name := by
  have names := ((later.trans List.filter_sublist).map Group.name).nodup catalog.distinct
  simpa using names

/-- A value among the evidence of a matched group's rule stands in the result of its rule
type, behind the name of the group, unless a group that is met later leaves a value under
the same key.  Then the name of one of the two is the name of the other, an underscore, and
some text. -/
theorem evidence_stands (text : String) (catalog : Catalog)
    (accepted : Catalog.ofText text = .ok catalog)
    (single : ∀ g ∈ catalog.groups, (g.rules.map Rule.ruleType).Nodup) (registry : Registry)
    (runcard : Runcard) (c : Condition) (source : Source) (g : Group)
    (met : g ∈ metBy catalog.groups c) (rule : Rule) (member : rule ∈ g.rules) (k : String)
    (value : Value)
    (entry : ((registry.dispatch ⟨c, runcard, rule⟩).run source).detail.get? k = some value)
    (other : k ≠ "group") :
    let key := g.name ++ "_" ++ k
    ∃ r, ((ofCondition registry runcard
          (ConditionMapping.ofCondition catalog.groups c)).run source).result?
        rule.ruleType = some r ∧
      ((∀ h w, [g, h].Sublist (metBy catalog.groups c) →
          ¬Leaves registry runcard source c rule.ruleType h key w) →
        r.detail.get? key = some value) ∧
      ∀ h w, [g, h].Sublist (metBy catalog.groups c) →
        Leaves registry runcard source c rule.ruleType h key w →
          (∃ s, h.name = g.name ++ "_" ++ s) ∨ ∃ s, g.name = h.name ++ "_" ++ s := by
  intro key
  have named : ∀ h ∈ catalog.groups, h.name ≠ "" := fun h hh =>
    (CatalogText.read_names (Catalog.read_of_ofText accepted) h hh).1
  have leaves : Leaves registry runcard source c rule.ruleType g key value :=
    ⟨rule, member, rfl, k, other, entry, rfl⟩
  refine ⟨_, result?_of_met met member, fun last => ?_, ?_⟩
  · obtain ⟨before, after, split⟩ := List.append_of_mem met
    rw [get?_finish _ (merged_ne_repeatedGroupsKey _ _)]
    refine get?_of_leaves named (single g (List.mem_filter.mp met).1) split leaves
      fun h hh w => last h w ?_
    rw [split]
    exact ((List.singleton_sublist.mpr hh).cons_cons g).trans (List.sublist_append_right _ _)
  · rintro h w later ⟨rule', _, _, k', _, _, shared⟩
    rcases eq_or_extends shared with same | ⟨s, longer, _⟩ | ⟨s, shorter, _⟩
    · exact absurd same.symm (name_ne_of_sublist later)
    · exact Or.inr ⟨s, longer⟩
    · exact Or.inl ⟨s, shorter⟩

end Matched

/-! ## Two groups with one key

The group `A` leaves the key `B_x` where the group `A_B` leaves the key `x`. -/

namespace Overlap

def text : String :=
  "group A:\n tools: T1\n rule X [Prod]\ngroup A_B:\n tools: T1\n rule X [Prod]\n"

def rule : Rule :=
  ⟨"X", ["Prod"], none⟩

def first : Group :=
  ⟨"A", [⟨"T1", ""⟩], [rule]⟩

def second : Group :=
  ⟨"A_B", [⟨"T1", ""⟩], [rule]⟩

def registry : Registry :=
  Entries.empty.insert "X" ⟨false, fun _ =>
    .done (.ok ⟨.pass, Entries.ofList [("B_x", .bool false), ("x", .bool true)]⟩)⟩

def runcard : Runcard :=
  { Runcard.ofId "RC-1" with part := some "TM1" }

def condition : Condition :=
  ⟨"C1", "T1", "R"⟩

theorem exists_catalog :
    ∃ catalog, Catalog.ofText text = .ok catalog ∧ catalog.groups = [first, second] := by
  have read : CatalogText.read text = .ok [first, second] := by decide +kernel
  exact Catalog.exists_ofText_of_read read (by decide) (by simp [first, second])

theorem metBy_groups :
    metBy [first, second] condition = [first, second] := by
  decide +kernel

end Overlap

open Overlap

/-- The group that is met last keeps its value, whatever the one before it has left. -/
theorem evidence_stands_of_last :
    ∃ catalog, Catalog.ofText text = .ok catalog ∧
      (∀ g ∈ catalog.groups, (g.rules.map Rule.ruleType).Nodup) ∧
      second ∈ metBy catalog.groups condition ∧ rule ∈ second.rules ∧
      ((registry.dispatch ⟨condition, runcard, rule⟩).run Source.empty).detail.get? "x" =
        some (.bool true) ∧
      ∃ r, ((ofCondition registry runcard (ConditionMapping.ofCondition catalog.groups
          condition)).run Source.empty).result? "X" = some r ∧
        r.detail.get? "A_B_x" = some (.bool true) := by
  obtain ⟨catalog, accepted, groups⟩ := exists_catalog
  have both : metBy catalog.groups condition = [first, second] := by
    rw [groups, metBy_groups]
  have single : ∀ g ∈ catalog.groups, (g.rules.map Rule.ruleType).Nodup := by
    rw [groups]
    simp [first, second]
  have met : second ∈ metBy catalog.groups condition := by simp [both]
  have member : rule ∈ second.rules := List.mem_singleton_self rule
  have entry : ((registry.dispatch ⟨condition, runcard, rule⟩).run Source.empty).detail.get? "x" =
      some (.bool true) := by
    decide +kernel
  obtain ⟨r, result, stands, -⟩ := evidence_stands text catalog accepted single registry runcard
    condition Source.empty second met rule member "x" _ entry (by decide)
  refine ⟨catalog, accepted, single, met, member, entry, r, result, stands fun h w later => ?_⟩
  rw [both] at later
  have same : "A_B" = "A" :=
    congrArg Group.name (List.cons.inj (later.eq_of_length rfl)).1
  exact absurd same (by decide)

/-- What the group that is met first has found is lost. -/
theorem evidence_overwritten :
    ∃ catalog, Catalog.ofText text = .ok catalog ∧
      (∀ g ∈ catalog.groups, (g.rules.map Rule.ruleType).Nodup) ∧
      ∃ g ∈ metBy catalog.groups condition, ∃ rule ∈ g.rules, ∃ k, k ≠ "group" ∧
        ((registry.dispatch ⟨condition, runcard, rule⟩).run Source.empty).detail.get? k =
          some (.bool false) ∧
        ¬∃ r, ((ofCondition registry runcard (ConditionMapping.ofCondition catalog.groups
            condition)).run Source.empty).result? rule.ruleType = some r ∧
          r.detail.get? (g.name ++ "_" ++ k) = some (.bool false) := by
  obtain ⟨catalog, accepted, groups⟩ := exists_catalog
  have found : ((registry.dispatch ⟨condition, runcard, rule⟩).run Source.empty).detail.get?
      "B_x" = some (.bool false) := by
    decide +kernel
  refine ⟨catalog, accepted, ?_, first, ?_, rule, by simp [first], "B_x", by decide, found, ?_⟩
  · rw [groups]
    simp [first, second]
  · simp [groups, metBy_groups]
  · rw [groups]
    rintro ⟨r, result, lost⟩
    have overwritten : ((((ofCondition registry runcard (ConditionMapping.ofCondition
        [first, second] condition)).run Source.empty).result? "X").bind fun r =>
          r.detail.get? "A_B_x") = some (.bool true) := by
      decide +kernel
    rw [show "X" = rule.ruleType from rfl, result] at overwritten
    cases lost.symm.trans overwritten

end Evaluation
end RuncardReview
