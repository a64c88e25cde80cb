import Mathlib.Data.Finset.Card
import RuncardReview.Check.RecipeGroupBlue
import RuncardReview.Proofs.CheckResults
import RuncardReview.Proofs.ConsolidationExact
import RuncardReview.Proofs.ExpansionForms
import RuncardReview.Proofs.RecipeBrackets

/-!
# Which tools fail for want of a release

A tool of the condition has to satisfy each bracket of the recipe id, and any of its records may do
that for any bracket.  So a tool fails if there is some bracket that none of its records satisfies.
The tools that do are named once each, in the order of the condition, and a further record can only
take a tool off that list.

**Results.**
* `released_eq_false_iff`: the tools that fail.
* `failing_sublist`: what more records change.
* `evaluate_releases`: the result of a rule on the releases of a recipe.
-/

namespace RuncardReview
namespace RecipeGroupBlue

open Distinct (firsts)

/-! ## The specification -/

/-- The record is one of the tool in use, in a chamber that the or-set accepts. -/
structure Releases (set : Recipe.OrSet) (tool : String) (r : ReleaseRecord) : Prop where
  tool : r.tool = tool
  released : r.released = true
  enabled : r.enabled = true
  chamber : set = [] ∨ "%%" ∈ set ∨ r.chamber ∈ set

/-- There is an or-set that no record of the tool satisfies.  A recipe without brackets asks for
any chamber. -/
def Lacks (sets : List Recipe.OrSet) (records : List ReleaseRecord) (tool : String) : Prop :=
  ∃ set ∈ (if sets = [] then [[]] else sets), ∀ r ∈ records, ¬Releases set tool r

/-- What a result says of the tools of a condition, of which these are the bad ones. -/
structure Judges (c : Condition) (sets : List Recipe.OrSet) (records : List ReleaseRecord)
    (bad : List String) (result : Result) : Prop where
  lacking : FirstSeen (fun tool t => tool = t ∧ Lacks sets records t) c.toolIds bad
  failTools : result.detail.get? "failTools" = some (.texts bad)
  fails : result.lamp = .fail ↔ bad ≠ []
  holds : result.lamp = .pass ↔ bad = []
  toolCount : result.detail.get? "toolCount" = some (.count c.toolIds.toFinset.card)

/-! ## The tools that fail -/

section Tools

variable {records more : List ReleaseRecord} {tool recipe : String} {tools : List String}

theorem satisfies_iff {set : Recipe.OrSet} {r : ReleaseRecord} :
    (r.tool = tool && r.released && r.enabled && Recipe.accepts set r.chamber) = true ↔
      Releases set tool r := by
  simp only [Bool.and_eq_true, decide_eq_true_eq, Recipe.accepts_iff]
  constructor
  · rintro ⟨⟨⟨named, released⟩, enabled⟩, chamber⟩
    exact ⟨named, released, enabled, chamber⟩
  · rintro ⟨named, released, enabled, chamber⟩
    exact ⟨⟨⟨named, released⟩, enabled⟩, chamber⟩

theorem released_iff {demands : List Recipe.OrSet} :
    released records tool demands = true ↔
      ∀ set ∈ demands, ∃ r ∈ records, Releases set tool r := by
  simp only [released, List.all_eq_true, List.any_eq_true, satisfies_iff]

theorem released_eq_false_iff :
    released records tool (Expansion.ofRecipe recipe).demands = false ↔
      Lacks (Recipe.orSets recipe) records tool := by
  rw [← Bool.not_eq_true, released_iff, Lacks]
  simp only [Expansion.demands, Expansion.isUnconstrained, Expansion.ofRecipe, List.isEmpty_iff]
  push Not
  rfl

theorem failing_eq_filter (recipe : String) (tools : List String) (records : List ReleaseRecord) :
    failing recipe tools records =
      (firsts tools).filter fun t => !released records t (Expansion.ofRecipe recipe).demands := by
  simp only [failing, Expansion.perTool, List.filter_map, List.map_map, Function.comp_def,
    List.map_id']

theorem firstSeen_failing (recipe : String) (tools : List String) (records : List ReleaseRecord) :
    FirstSeen (fun tool t => tool = t ∧ Lacks (Recipe.orSets recipe) records t) tools
      (failing recipe tools records) := by
  have listed : FirstSeen (fun tool t => tool = t) tools (firsts tools) := by
    simpa using Distinct.firstSeen_firsts some tools
  have kept := listed.filter fun t => !released records t (Expansion.ofRecipe recipe).demands
  simpa only [Bool.not_eq_true', released_eq_false_iff, ← failing_eq_filter] using kept

/-- Each record goes on satisfying what it satisfies. -/
theorem failing_sublist (added : records ⊆ more) (recipe : String) (tools : List String) :
    (failing recipe tools more).Sublist (failing recipe tools records) := by
  rw [failing_eq_filter, failing_eq_filter]
  refine List.monotone_filter_right _ fun t lacks => ?_
  rw [Bool.not_eq_true', ← Bool.not_eq_true, released_iff] at lacks ⊢
  refine mt (fun satisfied set demanded => ?_) lacks
  obtain ⟨r, member, releases⟩ := satisfied set demanded
  exact ⟨r, added member, releases⟩

theorem length_firsts (tools : List String) :
    (firsts tools).length = tools.toFinset.card := by
  have same : (firsts tools).toFinset = tools.toFinset := by
    ext t
    simp [Distinct.mem_firsts]
  rw [← same, List.toFinset_card_of_nodup (Distinct.nodup_firsts tools)]

end Tools

/-! ## The verdict -/

section Verdict

variable {policy : EmptyPolicy} {c : Condition} {records : List ReleaseRecord}

/-- The policy matters only where no record is found. -/
theorem verdict_of_stands (stands : records ≠ [] ∨ policy = .fail) :
    verdict policy c records =
      (((Verdict.ofLamp (if failing c.recipe c.toolIds records = [] then .pass else .fail)).note
        "recipeId" (.text c.recipe)).note
        "toolCount" (.count (firsts c.toolIds).length)).note
        "failTools" (.texts (failing c.recipe c.toolIds records)) := by
  have judged : ¬(records = [] ∧ policy ≠ .fail) := by
    rintro ⟨none, other⟩
    exact stands.elim (absurd none) other
  simp only [verdict, Bool.and_eq_true, List.isEmpty_iff, decide_eq_true_eq, if_neg judged]

theorem judges_of_stands (stands : records ≠ [] ∨ policy = .fail) (ruleType : String) :
    Judges c (Recipe.orSets c.recipe) records (failing c.recipe c.toolIds records)
      (Result.ofVerdict ruleType (verdict policy c records)) := by
  rw [verdict_of_stands stands, Result.ofVerdict]
  refine ⟨firstSeen_failing c.recipe c.toolIds records, ?failTools, ?fails, ?holds, ?toolCount⟩
  case failTools => rw [Verdict.get?_note_self]
  case fails =>
    simp only [Verdict.note_lamp, Verdict.ofLamp_lamp, Lamp.green_or_red_eq_fail_iff, ne_eq]
  case holds =>
    simp only [Verdict.note_lamp, Verdict.ofLamp_lamp, Lamp.green_or_red_eq_pass_iff]
  case toolCount =>
    rw [Verdict.get?_note_of_ne _ (by decide), Verdict.get?_note_self, length_firsts]

end Verdict

section Evaluate

variable {input : CheckInput} {source : Source} {records : List ReleaseRecord}

/-- Where there are tools, and records or else a policy to fail, the records decide. -/
theorem judges_evaluate (passes : Check.skipReason? check.needsSettings input = none)
    (asked : input.condition.toolIds ≠ [])
    (found : source (.release input.condition.recipe input.condition.toolIds) = .ok records)
    (stands : records ≠ [] ∨ EmptyPolicy.ofRule input.rule .fail = .fail) :
    Judges input.condition (Recipe.orSets input.condition.recipe) records
      (failing input.condition.recipe input.condition.toolIds records)
      ((check.evaluate input).run source) := by
  have asks : check.run input =
      Check.lookUp (.release input.condition.recipe input.condition.toolIds) fun records =>
        .ok (verdict (EmptyPolicy.ofRule input.rule .fail) input.condition records) := by
    simp only [check, List.isEmpty_iff, if_neg asked]
  have result : (check.evaluate input).run source = Result.ofVerdict input.rule.ruleType
      (verdict (EmptyPolicy.ofRule input.rule .fail) input.condition records) :=
    Check.run_evaluate_lookUp passes found asks
  rw [result]
  exact judges_of_stands stands _

end Evaluate

/-- A rule on the releases of a recipe that passes the gates is judged by the brackets of the
recipe id and by the records that are found, if there are any or the policy is to fail without.
Before a source with more records it names no other tools. -/
theorem evaluate_releases (input : CheckInput) (source : Source) (records : List ReleaseRecord)
    (passes : Check.skipReason? check.needsSettings input = none)
    (asked : input.condition.toolIds ≠ [])
    (found : source (.release input.condition.recipe input.condition.toolIds) = .ok records)
    (stands : records ≠ [] ∨ EmptyPolicy.ofRule input.rule .fail = .fail) :
    ∃ sets bad, Recipe.Asks input.condition.recipe sets ∧
      Judges input.condition sets records bad ((check.evaluate input).run source) ∧
      ∀ (other : Source) (more : List ReleaseRecord),
        other (.release input.condition.recipe input.condition.toolIds) = .ok more →
        records ⊆ more →
          ∃ fewer, fewer.Sublist bad ∧
            Judges input.condition sets more fewer ((check.evaluate input).run other) := by
  refine ⟨Recipe.orSets input.condition.recipe,
    failing input.condition.recipe input.condition.toolIds records, Recipe.asks_orSets _,
    judges_evaluate passes asked found stands, fun other more found' added => ?_⟩
  have stands' : more ≠ [] ∨ EmptyPolicy.ofRule input.rule .fail = .fail := by
    refine stands.imp_left fun some none => some ?_
    exact List.subset_nil.mp (none ▸ added)
  exact ⟨_, failing_sublist added _ _, judges_evaluate passes asked found' stands'⟩

/-! ## Two brackets -/

namespace Bracketed

def input : CheckInput :=
  ⟨⟨"C1", "T2, T1,T2,T3", "R\x7bcAB\x7d\x7bc(PM1;PM2)\x7d"⟩,
    { Runcard.ofId "RC-1" with part := some "TM1" },
    ⟨"RecipeGroupCheckBlue", ["Prod"], none⟩⟩

/-- The first tool has a record for each bracket, and the second one has a record out of use. -/
def records : List ReleaseRecord :=
  [⟨"T1", "PM2", true, true⟩, ⟨"T2", "PM1", true, false⟩, ⟨"T2", "A", true, true⟩,
    ⟨"T1", "B", true, true⟩]

def more : List ReleaseRecord :=
  ⟨"T2", "PM2", true, true⟩ :: records

def source (records : List ReleaseRecord) : Source
  | .release .. => .ok records
  | q => .ok q.noAnswer

def result (records : List ReleaseRecord) : Result :=
  (check.evaluate input).run (source records)

theorem failTools_result {records : List ReleaseRecord} (some : records ≠ []) {bad : List String}
    (fail : failing "R\x7bcAB\x7d\x7bc(PM1;PM2)\x7d" ["T2", "T1", "T2", "T3"] records = bad) :
    (result records).detail.get? "failTools" = .some (.texts bad) := by
  have asked : input.condition.toolIds = ["T2", "T1", "T2", "T3"] := by decide +kernel
  have judged := @judges_evaluate input (source records) records (by decide +kernel)
    (by simp [asked]) rfl (Or.inl some)
  rw [asked] at judged
  exact fail ▸ judged.failTools

end Bracketed

open Bracketed in
/-- The tool that is listed twice lacks the second bracket, until it gets a record for that. -/
theorem evaluate_releases_of_two_brackets :
    Check.skipReason? check.needsSettings input = none ∧
      input.condition.toolIds ≠ [] ∧
      records ⊆ more ∧
      ∃ sets, Recipe.Asks input.condition.recipe sets ∧
        Judges input.condition sets records ["T2", "T3"] (result records) ∧
        Judges input.condition sets more ["T3"] (result more) ∧
        ["T3"].Sublist ["T2", "T3"] := by
  have passes : Check.skipReason? check.needsSettings input = none := by decide +kernel
  have asked : input.condition.toolIds ≠ [] := by decide +kernel
  have added : records ⊆ more := List.subset_cons_self _ _
  obtain ⟨sets, bad, asks, judged, grown⟩ :=
    evaluate_releases input (source records) records passes asked rfl (Or.inl (by decide))
  obtain ⟨fewer, sub, judged'⟩ := grown (source more) more rfl added
  have both : (result records).detail.get? "failTools" = some (.texts ["T2", "T3"]) :=
    failTools_result (by decide) (by decide +kernel)
  have one : (result more).detail.get? "failTools" = some (.texts ["T3"]) :=
    failTools_result (by decide) (by decide +kernel)
  obtain rfl : bad = ["T2", "T3"] := by simpa using judged.failTools.symm.trans both
  obtain rfl : fewer = ["T3"] := by simpa using judged'.failTools.symm.trans one
  exact ⟨passes, asked, added, sets, asks, judged, judged', sub⟩

end RecipeGroupBlue
end RuncardReview
