import RuncardReview.Proofs.LampAgreement
import RuncardReview.Proofs.MemoTransparency

/-!
# The tools of a condition count as a set

The list of tools is a text that people write, with its blanks, repeats and stray commas.  The
ids are cut out of it in the order in which they stand, and this order goes on into the keys, the
lookups and the evidence.  It does not reach the groups that are matched, nor the lamps.

**Results.**
* `SameTools.sameGrounds`: before a source that takes tools as a set, the two conditions stand on
  the same grounds.
* `SameTools.groups_eq`: they are matched by the same groups.
* `ofRuncard_sameTools`: the mapping and the results of a runcard before records in memory.
-/

namespace RuncardReview

namespace SameTools

variable {c d : Condition}

theorem sameGrounds (same : SameTools c d) {source : Source} (sets : source.TakesSets)
    (runcard : Runcard) :
    SameGrounds source source runcard c d where
  toSameTools := same
  route := by
    rw [same.label]
    exact Outcome.Agree.refl (fun a => Eq.refl (ForwardProcess.byStep a)) _
  inhibitions := by
    rw [same.recipe, sets.inhibition d.recipe same.tools]
    exact .refl List.Perm.refl _
  counts := .refl (fun _ => rfl) _
  releases := by
    rw [same.recipe, sets.release d.recipe same.tools]
    exact .refl List.Perm.refl _
  sections _ := .refl (fun _ => rfl) _

theorem groups_eq (same : SameTools c d) (groups : List Group) :
    (ConditionMapping.ofCondition groups c).groups =
      (ConditionMapping.ofCondition groups d).groups := by
  show Group.matched groups (Evaluation.keysOf c) = Group.matched groups (Evaluation.keysOf d)
  rw [Evaluation.matched_eq_map, Evaluation.matched_eq_map, Evaluation.metBy_eq same]

end SameTools

namespace Mapping

/-- What a mapping says of its conditions, the tools and their keys left aside. -/
def matched (m : Mapping) : List (String × List GroupRules) :=
  m.conditions.map fun c => (c.condition.label, c.groups)

theorem build_matched {cs ds : List Condition} (same : List.Forall₂ SameTools cs ds)
    (runcard : Runcard) (groups : List Group) :
    (build (some runcard) cs groups).matched = (build (some runcard) ds groups).matched := by
  have empty : cs.isEmpty = ds.isEmpty := by cases same <;> rfl
  simp only [build, empty]
  split
  · rfl
  · rw [matched, matched, List.map_map, List.map_map]
    refine (Evaluation.map_eq_of_forall₂ (same.imp fun c d here => ?_)).symm
    exact Prod.ext here.label.symm (here.groups_eq groups).symm

end Mapping

namespace Evaluation

/-- Before records in memory, conditions that list the same tools, in whatever way, are matched
by the same groups with the same rules, and get the same rule types in the same order with the
same lamps. -/
theorem ofRuncard_sameTools (s : Records) (runcard : Runcard) (groups : List Group)
    (cs ds : List Condition) (same : List.Forall₂ SameTools cs ds) :
    (Mapping.build (some runcard) cs groups).matched =
        (Mapping.build (some runcard) ds groups).matched ∧
      ((ofRuncard Registry.builtin runcard cs groups).run s.source).conditions.map
          (fun e => (e.condition, e.headlines)) =
        ((ofRuncard Registry.builtin runcard ds groups).run s.source).conditions.map
          fun e => (e.condition, e.headlines) := by
  have grounds : List.Forall₂ (SameGrounds s.source s.source runcard) cs ds :=
    same.imp fun _ _ here => here.sameGrounds s.takesSets_source runcard
  exact ⟨Mapping.build_matched same runcard groups, run_ofRuncard_headlines groups grounds⟩

/-- The tools are turned round, one of them stands twice, and there are stray commas. -/
theorem ofRuncard_sameTools_of_repeats :
    let rules : List Rule := ["InhibitionCheckStatus", "RecipeGroupCheckBlue"].map fun t =>
      ⟨t, ["Prod"], none⟩
    let groups : List Group := [⟨"G1", [⟨"T2", "F"⟩], rules⟩, ⟨"G2", [⟨"T3", ""⟩], rules⟩]
    let s : Records := { Records.empty with
      inhibitions := [⟨"T1", "E", "Y"⟩, ⟨"T2", "F", "N"⟩, ⟨"T9", "", "N"⟩]
      releases := [("R\x7bcEF\x7d", ⟨"T1", "E", true, true⟩),
        ("R\x7bcEF\x7d", ⟨"T2", "F", true, true⟩)] }
    let cs : List Condition := [⟨"C1", "T1,T2", "R\x7bcEF\x7d"⟩, ⟨"C2", "T1", "R"⟩]
    let ds : List Condition := [⟨"C1", " T2 ,,T1,T2 ,", "R\x7bcEF\x7d"⟩, ⟨"C2", "T1,T1", "R"⟩]
    let runcard : Runcard := { Runcard.ofId "RC-1" with part := some "TM1" }
    let headlines := fun conditions : List Condition =>
      ((ofRuncard Registry.builtin runcard conditions groups).run s.source).conditions.map
        fun e => (e.condition, e.headlines)
    List.Forall₂ SameTools cs ds ∧
      (Mapping.build (some runcard) cs groups).matched =
        (Mapping.build (some runcard) ds groups).matched ∧
      headlines cs = headlines ds ∧
      headlines cs = [("C1", [("InhibitionCheckStatus", .caution), ("RecipeGroupCheckBlue", .pass)]),
        ("C2", [("no-group", .skip)])] := by
  intro rules groups s cs ds runcard headlines
  have first : ∀ t, t ∈ ["T1", "T2"] ↔ t ∈ ["T2", "T1", "T2"] := by
    intro t
    simp only [List.mem_cons, List.not_mem_nil, or_false]
    tauto
  have second : ∀ t, t ∈ ["T1"] ↔ t ∈ ["T1", "T1"] := by simp
  have same : List.Forall₂ SameTools cs ds :=
    .cons ⟨rfl, rfl, first⟩ (.cons ⟨rfl, rfl, second⟩ .nil)
  have both := ofRuncard_sameTools s runcard groups cs ds same
  exact ⟨same, both.1, both.2, by decide +kernel⟩

end Evaluation
end RuncardReview
