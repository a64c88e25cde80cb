import Mathlib.Logic.Relation
import RuncardReview.Proofs.RuleIsolation

/-!
# Adding groups and rules

Whether a group matches a condition is decided by its tools alone, so neither a further group
nor a further rule keeps one from being matched.  Every result that went into the results of a
condition still goes into them, and as the lamp of a rule type is the greatest of those that
went in, it can only rise.  What does change is the order of the results, their evidence, and
the result of a condition that no group matched before.

**Results.**
* `Adds.covers`, `covers_of_adds`: each group is still there, by one addition and by many.
* `Covers.dispatched_subset`: every result that was dispatched is dispatched.
* `ofRuncard_keeps`: the results of a runcard before and after.
-/

namespace RuncardReview
namespace Evaluation

/-- One more group, or one more rule in a group, wherever it is put. -/
inductive Adds : List Group → List Group → Prop
  | group (front back : List Group) (g : Group) : Adds (front ++ back) (front ++ g :: back)
  | rule (front back : List Group) (name : String) (tools : List Tool) (rules others : List Rule)
      (r : Rule) : Adds (front ++ ⟨name, tools, rules ++ others⟩ :: back)
        (front ++ ⟨name, tools, rules ++ r :: others⟩ :: back)

/-- Each group has a counterpart with the same tools, and with all its rules. -/
def Covers (groups larger : List Group) : Prop :=
  ∀ g ∈ groups, ∃ h ∈ larger, h.tools = g.tools ∧ g.rules ⊆ h.rules

/-- The results of a condition are kept if each of them has a counterpart whose lamp is not
lower.  Only the marker for a condition that no group matches may go. -/
structure Keeps (entry larger : ConditionResult) : Prop where
  condition : larger.condition = entry.condition
  toolChambers : larger.toolChambers = entry.toolChambers
  found : ∀ r ∈ entry.results, r.ruleType ≠ "no-group" →
    ∃ s ∈ larger.results, s.ruleType = r.ruleType
  lamp : ∀ r ∈ entry.results, r.ruleType ≠ "no-group" →
    ∀ s ∈ larger.results, s.ruleType = r.ruleType → r.lamp ≤ s.lamp

/-! ## The groups -/

section Groups

variable {groups larger : List Group}

theorem Covers.of_subset (kept : groups ⊆ larger) :
    Covers groups larger :=
  fun g member => ⟨g, kept member, rfl, List.Subset.refl _⟩

theorem Covers.trans {largest : List Group} (first : Covers groups larger)
    (second : Covers larger largest) :
    Covers groups largest := by
  intro g member
  obtain ⟨h, member, tools, rules⟩ := first g member
  obtain ⟨k, member, tools', rules'⟩ := second h member
  exact ⟨k, member, tools'.trans tools, fun r hr => rules' (rules hr)⟩

theorem Adds.covers (added : Adds groups larger) :
    Covers groups larger := by
  cases added with
  | group front back g =>
      exact .of_subset ((List.sublist_cons_self g back).append_left front).subset
  | rule front back name tools rules others r =>
      intro h member
      rcases List.mem_append.mp member with here | there
      · exact ⟨h, List.mem_append_left _ here, rfl, List.Subset.refl _⟩
      rcases List.mem_cons.mp there with rfl | there
      · exact ⟨_, List.mem_append_right _ List.mem_cons_self, rfl,
          ((List.sublist_cons_self r others).append_left rules).subset⟩
      · exact ⟨h, List.mem_append_right _ (List.mem_cons_of_mem _ there), rfl,
          List.Subset.refl _⟩

theorem covers_of_adds (added : Relation.ReflTransGen Adds groups larger) :
    Covers groups larger := by
  induction added with
  | refl => exact .of_subset (List.Subset.refl groups)
  | tail _ last ih => exact ih.trans last.covers

/-- A group is matched by its tools, so its counterpart is matched with it. -/
theorem Covers.metBy (covers : Covers groups larger) {c : Condition} {g : Group}
    (met : g ∈ metBy groups c) :
    ∃ h ∈ metBy larger c, g.rules ⊆ h.rules := by
  obtain ⟨member, meets⟩ := List.mem_filter.mp met
  obtain ⟨h, member, tools, rules⟩ := covers g member
  refine ⟨h, List.mem_filter.mpr ⟨member, ?_⟩, rules⟩
  rw [Group.meetsAny, tools]
  exact meets

theorem Covers.metBy_ne_nil (covers : Covers groups larger) {c : Condition}
    (some : Evaluation.metBy groups c ≠ []) :
    Evaluation.metBy larger c ≠ [] := by
  obtain ⟨g, met⟩ := List.exists_mem_of_ne_nil _ some
  obtain ⟨h, met, -⟩ := covers.metBy met
  exact List.ne_nil_of_mem met

theorem Covers.dispatched_subset (covers : Covers groups larger) (registry : Registry)
    (runcard : Runcard) (source : Source) (c : Condition) :
    dispatched registry runcard groups source c ⊆ dispatched registry runcard larger source c := by
  intro d among
  obtain ⟨g, met, among⟩ := List.mem_flatMap.mp among
  obtain ⟨rule, holds, rfl⟩ := List.mem_map.mp among
  obtain ⟨h, met, rules⟩ := covers.metBy met
  exact List.mem_flatMap.mpr ⟨h, met, List.mem_map_of_mem (rules holds)⟩

end Groups

/-! ## The results -/

section Results

variable {registry : Registry} {runcard : Runcard} {groups larger : List Group} {source : Source}

/-- Each result of a rule has the lamp of one that was dispatched. -/
theorem Reported.dispatched {c : Condition} {entry : ConditionResult}
    (report : Reported registry runcard groups source c entry) {r : Result}
    (member : r ∈ entry.results) (other : r.ruleType ≠ "no-group") :
    metBy groups c ≠ [] ∧ ∃ d ∈ dispatched registry runcard groups source c,
      d.ruleType = r.ruleType ∧ d.lamp = r.lamp := by
  have some : metBy groups c ≠ [] := by
    -- Without a match the marker would be the only result.
    intro none
    obtain ⟨s, only, marker, -⟩ := report.unmatched none
    rw [only, List.mem_singleton] at member
    exact other (member ▸ marker)
  exact ⟨some, (report.lamps some r member).1⟩

theorem Covers.keeps (covers : Covers groups larger) {c : Condition}
    {entry entry' : ConditionResult}
    (report : Reported registry runcard groups source c entry)
    (report' : Reported registry runcard larger source c entry') :
    Keeps entry entry' := by
  have kept := covers.dispatched_subset registry runcard source c
  refine ⟨report'.label.trans report.label.symm,
    report'.toolChambers.trans report.toolChambers.symm, ?found, ?lamp⟩
  case found =>
    intro r member other
    obtain ⟨some, d, among, type, -⟩ := report.dispatched member other
    have filed : r.ruleType ∈ entry'.results.map Result.ruleType := by
      rw [report'.ruleTypes (covers.metBy_ne_nil some), Distinct.mem_firsts, ← type]
      exact List.mem_map_of_mem (kept among)
    simpa using filed
  case lamp =>
    intro r member other s member' same
    obtain ⟨some, d, among, type, lamp⟩ := report.dispatched member other
    have greatest := report'.lamps (covers.metBy_ne_nil some) s member'
    exact lamp ▸ greatest.2 ⟨d, kept among, type.trans same.symm, rfl⟩

/-- Under every condition of a runcard, the results of all rule types are kept when groups and
rules are added, and no lamp gets lower. -/
theorem ofRuncard_keeps (registry : Registry) (runcard : Runcard) (conditions : List Condition)
    (source : Source) (groups larger : List Group) (any : groups ≠ [])
    (added : Relation.ReflTransGen Adds groups larger) :
    List.Forall₂ Keeps ((ofRuncard registry runcard conditions groups).run source).conditions
      ((ofRuncard registry runcard conditions larger).run source).conditions := by
  have covers := covers_of_adds added
  have any' : larger ≠ [] := by
    obtain ⟨g, member⟩ := List.exists_mem_of_ne_nil groups any
    obtain ⟨h, member, -⟩ := covers g member
    exact List.ne_nil_of_mem member
  rw [run_ofRuncard_conditions any, run_ofRuncard_conditions any', List.forall₂_map_left_iff,
    List.forall₂_map_right_iff, List.forall₂_same]
  exact fun c _ => covers.keeps (reported c) (reported c)

/-- A rule comes to stand before one that is skipped, and then a group that raises its lamp
and matches a condition which no group matched before. -/
theorem ofRuncard_keeps_of_two_additions :
    let wafer : List String → Rule := fun lots => ⟨"WaferCondition", lots, none⟩
    let unknown : Rule := ⟨"Unknown", ["Prod"], none⟩
    let groups : List Group := [⟨"G1", [⟨"T1", ""⟩], [wafer []]⟩]
    let larger : List Group :=
      [⟨"G0", [⟨"T1", ""⟩, ⟨"T2", ""⟩], [wafer ["Prod"]]⟩, ⟨"G1", [⟨"T1", ""⟩], [unknown, wafer []]⟩]
    let conditions : List Condition := [⟨"C1", "T1", "R"⟩, ⟨"C2", "T2", "R"⟩]
    let runcard : Runcard := { Runcard.ofId "RC-1" with part := some "TM1" }
    let entries : List Group → List ConditionResult := fun gs =>
      ((ofRuncard Registry.builtin runcard conditions gs).run Source.empty).conditions
    let lampsOf : List Group → List (List (String × Lamp)) := fun gs =>
      (entries gs).map fun entry => entry.results.map fun r => (r.ruleType, r.lamp)
    groups ≠ [] ∧ Relation.ReflTransGen Adds groups larger ∧
      List.Forall₂ Keeps (entries groups) (entries larger) ∧
      lampsOf groups = [[("WaferCondition", .skip)], [("no-group", .skip)]] ∧
      lampsOf larger =
        [[("WaferCondition", .fail), ("Unknown", .fail)], [("WaferCondition", .fail)]] := by
  intro wafer unknown groups larger conditions runcard entries lampsOf
  have any : groups ≠ [] := List.cons_ne_nil _ _
  have rule : Adds groups [⟨"G1", [⟨"T1", ""⟩], [unknown, wafer []]⟩] :=
    .rule [] [] "G1" _ [] [wafer []] unknown
  have added : Relation.ReflTransGen Adds groups larger := .tail (.single rule) (.group [] _ _)
  exact ⟨any, added, ofRuncard_keeps _ _ _ _ _ _ any added, by decide +kernel, by decide +kernel⟩

end Results

end Evaluation
end RuncardReview
