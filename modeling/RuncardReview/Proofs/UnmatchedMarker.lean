import RuncardReview.Proofs.CatalogSoundness
import RuncardReview.Proofs.RuleIsolation

/-!
# The result of a condition that no group matches

Such a condition gets a single result, under a rule type of its own.  Results are filed under
rule types alone, so this one says what it should only as long as no rule has that type.  No
rule of a catalog text does: the hyphen in it cannot stand in the name of a rule type.

**Results.**
* `exists_rule_of_mem_results`: where the types of the results of a matched condition come from.
* `marks_of_unreserved`: what the marker says where no rule has its type.
* `ofText_marks`: what it says for the catalog of every accepted text.
-/

namespace RuncardReview
namespace Evaluation

open CatalogText

/-- The results of a condition hold the marker exactly if no group matches, and then
nothing else. -/
structure Marks (groups : List Group) (c : Condition) (entry : ConditionResult) : Prop where
  unmatched : (∃ r ∈ entry.results, r.ruleType = "no-group") ↔
    ∀ g ∈ groups, g.meetsAny (keysOf c) = false
  alone : (∃ r ∈ entry.results, r.ruleType = "no-group") →
    ∃ r, entry.results = [r] ∧ r.ruleType = "no-group" ∧ r.lamp = .skip

section Condition

variable {registry : Registry} {runcard : Runcard} {groups : List Group} {source : Source}

theorem metBy_eq_nil_iff {c : Condition} :
    metBy groups c = [] ↔ ∀ g ∈ groups, g.meetsAny (keysOf c) = false := by
  simp [metBy, List.filter_eq_nil_iff]

/-- Every result of a matched condition has the type of a rule of a matched group. -/
theorem exists_rule_of_mem_results {c : Condition} {entry : ConditionResult}
    (reported : Reported registry runcard groups source c entry) (some : metBy groups c ≠ [])
    {r : Result} (member : r ∈ entry.results) :
    ∃ g ∈ metBy groups c, ∃ rule ∈ g.rules, rule.ruleType = r.ruleType := by
  have filed : r.ruleType ∈ entry.results.map Result.ruleType := List.mem_map_of_mem member
  rw [reported.ruleTypes some, Distinct.mem_firsts] at filed
  obtain ⟨d, among, type⟩ := List.mem_map.mp filed
  obtain ⟨g, met, among⟩ := List.mem_flatMap.mp among
  obtain ⟨rule, holds, rfl⟩ := List.mem_map.mp among
  have own : _ = rule.ruleType := (registry.dispatch_ends ⟨c, runcard, rule⟩).run source
  exact ⟨g, met, rule, holds, own.symm.trans type⟩

theorem marks_of_unreserved {c : Condition} {entry : ConditionResult}
    (reported : Reported registry runcard groups source c entry)
    (unreserved : ∀ g ∈ groups, ∀ rule ∈ g.rules, rule.ruleType ≠ "no-group") :
    Marks groups c entry := by
  by_cases none : metBy groups c = []
  · obtain ⟨r, only, type, lamp, -⟩ := reported.unmatched none
    have marked : ∃ r ∈ entry.results, r.ruleType = "no-group" := ⟨r, by simp [only], type⟩
    exact ⟨⟨fun _ => metBy_eq_nil_iff.mp none, fun _ => marked⟩, fun _ => ⟨r, only, type, lamp⟩⟩
  · have unmarked : ¬ ∃ r ∈ entry.results, r.ruleType = "no-group" := by
      rintro ⟨r, member, marker⟩
      obtain ⟨g, met, rule, holds, type⟩ := exists_rule_of_mem_results reported none member
      exact unreserved g (List.mem_filter.mp met).1 rule holds (type.trans marker)
    have matched : ¬ ∀ g ∈ groups, g.meetsAny (keysOf c) = false :=
      fun unmet => none (metBy_eq_nil_iff.mpr unmet)
    exact ⟨iff_of_false unmarked matched, fun marked => absurd marked unmarked⟩

end Condition

/-- A hyphen does not stand in a name. -/
theorem isName_ne_noGroup {s : String} (named : IsName s) :
    s ≠ "no-group" := by
  rintro rfl
  obtain ⟨c, cs, chars, -, name⟩ := named
  cases chars
  exact absurd (name '-' (by decide)) (by decide)

/-- In the catalog of every accepted text the marker stands for a condition that no group
matches, and for nothing else. -/
theorem ofText_marks (text : String) (catalog : Catalog)
    (accepted : Catalog.ofText text = .ok catalog) (any : catalog.groups ≠ [])
    (registry : Registry) (runcard : Runcard) (source : Source) (conditions : List Condition) :
    List.Forall₂ (Marks catalog.groups) conditions
      ((ofRuncard registry runcard conditions catalog.groups).run source).conditions := by
  have unreserved : ∀ g ∈ catalog.groups, ∀ rule ∈ g.rules, rule.ruleType ≠ "no-group" := by
    intro g member rule holds
    have formed := forall_of_read group_wellFormed (Catalog.read_of_ofText accepted) g member
    exact isName_ne_noGroup (formed.rules rule holds).type
  rw [run_ofRuncard_conditions any, List.forall₂_map_right_iff, List.forall₂_same]
  exact fun c _ => marks_of_unreserved (reported c) unreserved

/-- A rule type that differs from the marker only in the character between the two words. -/
theorem ofText_marks_of_underscore :
    ∃ catalog, Catalog.ofText "group A:\n tools: T1\n rule no_group [Prod]\n" = .ok catalog ∧
      catalog.groups ≠ [] ∧
      let conditions : List Condition := [⟨"C1", "T1", "R"⟩, ⟨"C2", "T9", "R"⟩]
      let entries := ((ofRuncard Registry.builtin (Runcard.ofId "RC-1") conditions
        catalog.groups).run Source.empty).conditions
      List.Forall₂ (Marks catalog.groups) conditions entries ∧
        entries.map (fun entry => entry.results.map fun r => (r.ruleType, r.lamp)) =
          [[("no_group", .fail)], [("no-group", .skip)]] := by
  let g : Group := ⟨"A", [⟨"T1", ""⟩], [⟨"no_group", ["Prod"], none⟩]⟩
  have found : read "group A:\n tools: T1\n rule no_group [Prod]\n" = .ok [g] := by decide +kernel
  obtain ⟨catalog, accepted, groups⟩ :=
    Catalog.exists_ofText_of_read found (by simp) (by simp [g])
  have any : catalog.groups ≠ [] := groups ▸ List.cons_ne_nil g []
  refine ⟨catalog, accepted, any, ofText_marks _ catalog accepted any _ _ _ _, ?_⟩
  rw [groups]
  decide +kernel

end Evaluation
end RuncardReview
