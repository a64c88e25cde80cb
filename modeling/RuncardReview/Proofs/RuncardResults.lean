import Mathlib.Data.List.Forall2
import RuncardReview.Evaluation
import RuncardReview.Proofs.ConsolidationBuckets

/-!
# The results of a runcard

An evaluated runcard has one entry for each condition.  What stands there is said
without the pipeline: the groups of the catalog that the condition meets, the
results that their rules are dispatched to, one after the other, and of each rule
type among them the greatest lamp.

**Results.**
* `run_inOrder`: inquiries made in order against a source.
* `ofRuncard_results`: the entries of all conditions and the worst lamp of the
  runcard.
-/

namespace RuncardReview
namespace Evaluation

open Distinct (firsts)

variable (registry : Registry) (runcard : Runcard) (groups : List Group) (source : Source)

theorem run_inOrder {α β : Type} (f : α → Inquiry β) (l : List α) :
    (inOrder f l).run source = l.map fun a => (f a).run source := by
  induction l with
  | nil => rfl
  | cons a l ih => simp [inOrder, ih]

/-- The keys of a condition: its tools, each with what its recipe asks of it. -/
def keysOf (c : Condition) : List String :=
  (Expansion.ofRecipe c.recipe).flatten c.toolIds

/-- The groups that a condition meets, in catalog order. -/
def metBy (c : Condition) : List Group :=
  groups.filter fun g => g.meetsAny (keysOf c)

/-- The results to which the rules of those groups are dispatched, group by group. -/
def dispatched (c : Condition) : List Result :=
  (metBy groups c).flatMap fun g =>
    g.rules.map fun rule => (registry.dispatch ⟨c, runcard, rule⟩).run source

/-- What an evaluated runcard says of a condition. -/
structure Reported (c : Condition) (entry : ConditionResult) : Prop where
  label : entry.condition = c.label
  toolChambers : entry.toolChambers = keysOf c
  unmatched : metBy groups c = [] →
    ∃ r, entry.results = [r] ∧ r.ruleType = "no-group" ∧ r.lamp = .skip ∧
      r.detail.toList = [("recipeId", .text c.recipe)]
  ruleTypes : metBy groups c ≠ [] →
    entry.results.map Result.ruleType =
      firsts ((dispatched registry runcard groups source c).map Result.ruleType)
  lamps : metBy groups c ≠ [] → ∀ r ∈ entry.results,
    IsGreatest {a | ∃ d ∈ dispatched registry runcard groups source c,
      d.ruleType = r.ruleType ∧ d.lamp = a} r.lamp
  silent : entry.results = [] ↔
    metBy groups c ≠ [] ∧ ∀ g ∈ metBy groups c, g.rules = []

variable {registry runcard groups source}

theorem matched_eq_map (c : Condition) :
    Group.matched groups (keysOf c) = (metBy groups c).map fun g => ⟨g.name, g.rules⟩ := by
  rfl

/-- The tag of its group changes neither the rule type nor the lamp of a result. -/
theorem run_dispatchTagged (c : Condition) (entry : String × Rule) :
    (dispatchTagged registry runcard c entry).run source =
      ((registry.dispatch ⟨c, runcard, entry.2⟩).run source).note Consolidation.groupKey
        (.text entry.1) := by
  rw [dispatchTagged, Inquiry.run_map]

/-- The tagged results of a condition. -/
def tagged (registry : Registry) (runcard : Runcard) (groups : List Group) (source : Source)
    (c : Condition) : List Result :=
  (metBy groups c).flatMap fun g => g.rules.map fun rule =>
    ((registry.dispatch ⟨c, runcard, rule⟩).run source).note Consolidation.groupKey
      (.text g.name)

theorem run_taggedRules (c : Condition) :
    (inOrder (dispatchTagged registry runcard c)
        (taggedRules (Group.matched groups (keysOf c)))).run source =
      tagged registry runcard groups source c := by
  rw [run_inOrder, matched_eq_map, taggedRules, List.flatMap_map, List.map_flatMap, tagged]
  refine List.flatMap_congr fun g _ => ?_
  rw [List.map_map]
  exact List.map_congr_left fun rule _ => run_dispatchTagged c (g.name, rule)

theorem tagged_ruleTypes (c : Condition) :
    (tagged registry runcard groups source c).map Result.ruleType =
      (dispatched registry runcard groups source c).map Result.ruleType := by
  simp [tagged, dispatched, List.map_flatMap, Function.comp_def, Result.note]

theorem mem_tagged_lamps (c : Condition) (t : String) (a : Lamp) :
    (∃ e ∈ tagged registry runcard groups source c, e.ruleType = t ∧ e.lamp = a) ↔
      ∃ d ∈ dispatched registry runcard groups source c, d.ruleType = t ∧ d.lamp = a := by
  simp [tagged, dispatched, Result.note]

theorem groups_isEmpty_iff (c : Condition) :
    (ConditionMapping.ofCondition groups c).groups.isEmpty = true ↔ metBy groups c = [] := by
  show (Group.matched groups (keysOf c)).isEmpty = true ↔ _
  rw [matched_eq_map, List.isEmpty_iff, List.map_eq_nil_iff]

theorem run_results (c : Condition) :
    (results registry runcard (ConditionMapping.ofCondition groups c)).run source =
      if metBy groups c = [] then
        [(Result.ofLamp noGroup .skip).note "recipeId" (.text c.recipe)]
      else Consolidation.consolidate (tagged registry runcard groups source c) := by
  unfold results
  by_cases h : metBy groups c = []
  · rw [if_pos h, if_pos ((groups_isEmpty_iff c).mpr h)]
    rfl
  · rw [if_neg h, if_neg fun e => h ((groups_isEmpty_iff c).mp e), Inquiry.run_map]
    exact congrArg Consolidation.consolidate (run_taggedRules c)

/-- No result is left exactly if there was no rule to dispatch. -/
theorem consolidate_tagged_eq_nil_iff (c : Condition) :
    Consolidation.consolidate (tagged registry runcard groups source c) = [] ↔
      ∀ g ∈ metBy groups c, g.rules = [] := by
  rw [← List.map_eq_nil_iff (f := Result.ruleType), Consolidation.consolidate_ruleTypes,
    Distinct.firsts_eq_nil_iff, List.map_eq_nil_iff, tagged, List.flatMap_eq_nil_iff]
  simp only [List.map_eq_nil_iff]

theorem reported (c : Condition) :
    Reported registry runcard groups source c
      ((ofCondition registry runcard (ConditionMapping.ofCondition groups c)).run source) := by
  have entry : (ofCondition registry runcard (ConditionMapping.ofCondition groups c)).run source =
      ⟨c.label, keysOf c,
        (results registry runcard (ConditionMapping.ofCondition groups c)).run source⟩ := by
    rw [ofCondition, Inquiry.run_map]
    rfl
  rw [entry, run_results]
  by_cases none : metBy groups c = []
  · rw [if_pos none]
    refine ⟨rfl, rfl, fun _ => ⟨_, rfl, rfl, rfl, rfl⟩, fun some => absurd none some,
      fun some => absurd none some, ?_⟩
    simp [none]
  · rw [if_neg none]
    refine ⟨rfl, rfl, fun h => absurd h none, fun _ => ?_, fun _ r hr => ?_, ?_⟩
    · show (Consolidation.consolidate _).map Result.ruleType = _
      rw [Consolidation.consolidate_ruleTypes, tagged_ruleTypes]
    · have greatest := Consolidation.consolidate_lamp_isGreatest hr
      simpa only [mem_tagged_lamps] using greatest
    · show Consolidation.consolidate _ = [] ↔ _
      rw [consolidate_tagged_eq_nil_iff]
      exact ⟨fun h => ⟨none, h⟩, fun h => h.2⟩

theorem run_ofRuncard {conditions : List Condition} (some : conditions ≠ [])
    (any : groups ≠ []) :
    (ofRuncard registry runcard conditions groups).run source =
      ⟨runcard.id, conditions.map fun c =>
        (ofCondition registry runcard (ConditionMapping.ofCondition groups c)).run source⟩ := by
  have build : Mapping.build (Option.some runcard) conditions groups =
      ⟨Option.some runcard, conditions.map (ConditionMapping.ofCondition groups)⟩ := by
    simp [Mapping.build, some, any]
  rw [ofRuncard, build, ofMapping, Inquiry.run_map, run_inOrder, List.map_map]
  rfl

/-- The worst lamp of a runcard is the greatest lamp of all its results. -/
theorem worst?_eq_some_iff (result : RuncardResult) (lamp : Lamp) :
    result.worst? = some lamp ↔
      IsGreatest {a | ∃ entry ∈ result.conditions, ∃ r ∈ entry.results, r.lamp = a} lamp := by
  rw [RuncardResult.worst?, Lamp.worst?_eq_some_iff]
  simp only [List.mem_flatMap, List.mem_map]

theorem worst?_eq_none_iff (result : RuncardResult) :
    result.worst? = none ↔ ∀ entry ∈ result.conditions, entry.results = [] := by
  rw [RuncardResult.worst?, Lamp.worst?_eq_none_iff, List.flatMap_eq_nil_iff]
  simp only [List.map_eq_nil_iff]

/-- An evaluated runcard says of every condition, in order, what there is to say of it,
and its worst lamp is the greatest of all. -/
theorem ofRuncard_results (registry : Registry) (runcard : Runcard)
    (conditions : List Condition) (groups : List Group) (source : Source)
    (some : conditions ≠ []) (any : groups ≠ []) :
    let result := (ofRuncard registry runcard conditions groups).run source
    result.runcard = runcard.id ∧
      List.Forall₂ (Reported registry runcard groups source) conditions result.conditions ∧
      (result.worst? = none ↔ ∀ entry ∈ result.conditions, entry.results = []) ∧
      ∀ lamp, result.worst? = Option.some lamp ↔
        IsGreatest {a | ∃ entry ∈ result.conditions, ∃ r ∈ entry.results, r.lamp = a}
          lamp := by
  intro result
  have eq : result = _ := run_ofRuncard some any
  refine ⟨by rw [eq], ?_, worst?_eq_none_iff result, worst?_eq_some_iff result⟩
  rw [eq, List.forall₂_map_right_iff, List.forall₂_same]
  exact fun c _ => reported c

/-- Two groups with a rule type in common meet the first condition, none the second. -/
theorem ofRuncard_results_of_common_type :
    let wafer : Rule := ⟨"WaferCondition", [], none⟩
    let unknown : Rule := ⟨"Unknown", ["Prod"], none⟩
    let groups : List Group :=
      [⟨"G1", [Tool.anyChamber "T1"], [wafer]⟩,
        ⟨"G2", [Tool.anyChamber "T1"], [unknown, wafer]⟩]
    let conditions : List Condition := [⟨"C1", "T1", "R"⟩, ⟨"C2", "T9", "R"⟩]
    let runcard := Runcard.ofId "RC-1"
    let result := (ofRuncard Registry.builtin runcard conditions groups).run Source.empty
    conditions ≠ [] ∧ groups ≠ [] ∧
      List.Forall₂ (Reported Registry.builtin runcard groups Source.empty) conditions
        result.conditions ∧
      result.conditions.map (fun entry => entry.results.map Result.ruleType) =
        [["WaferCondition", "Unknown"], ["no-group"]] ∧
      result.worst? = some .fail := by
  intro wafer unknown groups conditions runcard result
  have some : conditions ≠ [] := List.cons_ne_nil _ _
  have any : groups ≠ [] := List.cons_ne_nil _ _
  have report := ofRuncard_results Registry.builtin runcard conditions groups Source.empty
    some any
  exact ⟨some, any, report.2.1, by decide +kernel, by decide +kernel⟩

end Evaluation
end RuncardReview
