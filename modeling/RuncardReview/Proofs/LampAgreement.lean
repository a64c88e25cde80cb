import Mathlib.Data.Option.Basic
import RuncardReview.Proofs.RuleIsolation

/-!
# Two evaluations with the same lamps

Only a part of what a check gets to see decides its lamp: the tools of the condition as a set,
the steps of the route in ascending order, the other records in any order, and of a lookup that
fails nothing but that it does.  Where this part is the same in two evaluations, they come to
the same rule types with the same lamps.  The evidence behind the lamps may differ, as it tells
the tools and the records in the order in which they came.

**Results.**
* `consolidate_headlines`: the types and lamps of consolidated results, from those that went in.
* `RuleKind.lamp_eq`, `Registry.dispatch_headline`: one rule under two conditions and sources.
* `run_ofRuncard_headlines`: all conditions of a runcard.
-/

namespace RuncardReview

/-- The answer that a computation came to, if it came to one. -/
def Outcome.answer? {ε α : Type} : Outcome ε α → Option α
  | .ok a => some a
  | _ => none

/-- Both outcomes are answers, which are so related, or neither is one. -/
def Outcome.Agree {ε α β : Type} (R : α → β → Prop) (x : Outcome ε α) (y : Outcome ε β) : Prop :=
  Option.Rel R x.answer? y.answer?

theorem Outcome.Agree.refl {ε α : Type} {R : α → α → Prop} (related : ∀ a, R a a)
    (x : Outcome ε α) :
    x.Agree R x := by
  unfold Agree
  cases x.answer? with
  | none => exact .none
  | some a => exact .some (related a)

theorem Outcome.Agree.imp {ε α β : Type} {R S : α → β → Prop} {x : Outcome ε α} {y : Outcome ε β}
    (agree : x.Agree R y) (implies : ∀ a b, R a b → S a b) :
    x.Agree S y := by
  unfold Agree at *
  generalize x.answer? = a, y.answer? = b at *
  cases agree with
  | none => exact .none
  | some related => exact .some (implies _ _ related)

/-- What is said of a rule type in the first place. -/
def Result.headline (r : Result) : String × Lamp :=
  (r.ruleType, r.lamp)

def ConditionResult.headlines (e : ConditionResult) : List (String × Lamp) :=
  e.results.map Result.headline

/-! ## Consolidation -/

namespace Consolidation

open Distinct (firsts)

/-- Each type with the worst of its lamps, in order of first appearance. -/
def worstHeadlines (hs : List (String × Lamp)) : List (String × Lamp) :=
  (firsts (hs.map Prod.fst)).map fun t =>
    (t, ((hs.filter fun h => h.1 = t).map Prod.snd).foldl max .skip)

theorem consolidate_headlines (entries : List Result) :
    (consolidate entries).map Result.headline =
      worstHeadlines (entries.map Result.headline) := by
  have types : (entries.map Result.headline).map Prod.fst = entries.map Result.ruleType := by
    rw [List.map_map]
    rfl
  have lamps : ∀ t, ((entries.map Result.headline).filter fun h => h.1 = t).map Prod.snd =
      (entries.filter fun r => r.ruleType = t).map Result.lamp := by
    intro t
    rw [List.filter_map, List.map_map]
    rfl
  rw [consolidate_eq_map, worstHeadlines, List.map_map, types]
  refine List.map_congr_left fun t _ => ?_
  simp only [Function.comp_apply, Result.headline, finish_ruleType, finish_lamp,
    bucketOf_ruleType]
  rw [lamps, bucketOf, foldl_absorb_lamp]
  rfl

end Consolidation

/-! ## What the lamps depend on -/

/-- The steps of a route in ascending order. -/
def ForwardProcess.byStep (records : List ProcessRecord) : List ProcessRecord :=
  records.mergeSort fun a b => decide (a.step ≤ b.step)

theorem ForwardProcess.step_trans (a b c : ProcessRecord) (hab : decide (a.step ≤ b.step) = true)
    (hbc : decide (b.step ≤ c.step) = true) :
    decide (a.step ≤ c.step) = true := by
  rw [decide_eq_true_iff] at *
  exact UInt32.le_trans hab hbc

theorem ForwardProcess.step_total (a b : ProcessRecord) :
    (decide (a.step ≤ b.step) || decide (b.step ≤ a.step)) = true := by
  rw [Bool.or_eq_true, decide_eq_true_iff, decide_eq_true_iff]
  exact UInt32.le_total a.step b.step

theorem ForwardProcess.pairwise_byStep (records : List ProcessRecord) :
    (byStep records).Pairwise fun a b => a.step ≤ b.step :=
  (List.pairwise_mergeSort step_trans step_total records).imp of_decide_eq_true

/-- Two conditions that differ at most in how their tools are listed. -/
structure SameTools (c d : Condition) : Prop where
  label : c.label = d.label
  recipe : c.recipe = d.recipe
  tools : ∀ t, t ∈ c.toolIds ↔ t ∈ d.toolIds

/-- Two conditions of a runcard, each before a source of its own, that agree in all that the
lamps depend on. -/
structure SameGrounds (first second : Source) (runcard : Runcard) (c d : Condition) : Prop
    extends SameTools c d where
  route : Outcome.Agree (fun a b => ForwardProcess.byStep a = ForwardProcess.byStep b)
    (first (.forward runcard.id c.label)) (second (.forward runcard.id d.label))
  inhibitions : Outcome.Agree List.Perm (first (.inhibition c.toolIds c.recipe))
    (second (.inhibition d.toolIds d.recipe))
  counts : Outcome.Agree Eq (first (.wafer runcard.id)) (second (.wafer runcard.id))
  releases : Outcome.Agree List.Perm (first (.release c.recipe c.toolIds))
    (second (.release d.recipe d.toolIds))
  sections : ∀ engineer, Outcome.Agree Eq (first (.engineerSection engineer))
    (second (.engineerSection engineer))

/-! ## The checks -/

theorem ForwardProcess.verdict_eq (rule : Rule) {a b : List ProcessRecord}
    (same : byStep a = byStep b) :
    verdict rule a = verdict rule b := by
  have checked : ∀ s, window s a = window s b := by
    intro s
    unfold byStep at same
    simp only [window, same]
  simp only [verdict, checked]

theorem InhibitionStatus.verdict_lamp (rule : Rule) {a b : List InhibitionRecord}
    (perm : a.Perm b) :
    (verdict rule a).lamp = (verdict rule b).lamp := by
  have inhibited : (a.filter fun r => r.flag ≠ "Y").isEmpty =
      (b.filter fun r => r.flag ≠ "Y").isEmpty := (perm.filter _).isEmpty_eq
  simp only [verdict, perm.isEmpty_eq]
  split
  · rfl
  · simp only [Verdict.note, Verdict.ofLamp, inhibited]

namespace RecipeGroupBlue

theorem released_eq {a b : List ReleaseRecord} (perm : a.Perm b) :
    released a = released b := by
  funext tool demands
  simp only [released, perm.any_eq]

/-- No tool fails exactly if each satisfies every demand of the recipe. -/
theorem failing_eq_nil_iff (recipe : String) (tools : List String)
    (records : List ReleaseRecord) :
    failing recipe tools records = [] ↔
      ∀ t ∈ tools, released records t (Expansion.ofRecipe recipe).demands = true := by
  simp [failing, Expansion.perTool, Distinct.mem_firsts]

theorem verdict_lamp (policy : EmptyPolicy) {c d : Condition} (same : SameTools c d)
    {a b : List ReleaseRecord} (perm : a.Perm b) :
    (verdict policy c a).lamp = (verdict policy d b).lamp := by
  have bad : (failing c.recipe c.toolIds a).isEmpty = (failing d.recipe d.toolIds b).isEmpty := by
    rw [Bool.eq_iff_iff, List.isEmpty_iff, List.isEmpty_iff, failing_eq_nil_iff,
      failing_eq_nil_iff, same.recipe, released_eq perm]
    simp only [same.tools]
  simp only [verdict, perm.isEmpty_eq]
  split
  · rfl
  · simp only [Verdict.note, Verdict.ofLamp, bad]

end RecipeGroupBlue

namespace Check

variable {first second : Source}

/-- A check that asks once is red if the lookup fails, whichever way. -/
theorem file_lookUp_lamp_eq (t : String) (q : Query) (next : q.Answer → CheckOutcome)
    (source : Source) :
    (file t ((lookUp q next).run source)).lamp =
      (source q).answer?.elim .fail fun a => (file t (next a)).lamp := by
  simp only [lookUp, Inquiry.run]
  cases source q <;> rfl

/-- It comes to one lamp in both evaluations if the two answers do. -/
theorem file_lookUp_lamp (t : String) {p q : Query} {R : p.Answer → q.Answer → Prop}
    {next : p.Answer → CheckOutcome} {next' : q.Answer → CheckOutcome}
    (replies : Outcome.Agree R (first p) (second q))
    (lamps : ∀ a b, R a b → (file t (next a)).lamp = (file t (next' b)).lamp) :
    (file t ((lookUp p next).run first)).lamp = (file t ((lookUp q next').run second)).lamp := by
  rw [file_lookUp_lamp_eq, file_lookUp_lamp_eq]
  unfold Outcome.Agree at replies
  generalize (first p).answer? = a, (second q).answer? = b at *
  cases replies with
  | none => rfl
  | some related => exact lamps _ _ related

end Check

namespace RuleKind

variable {first second : Source} {runcard : Runcard} {c d : Condition}

/-- On the same grounds each of the checks comes to the same lamp. -/
theorem lamp_eq (same : SameGrounds first second runcard c d) (kind : RuleKind) (rule : Rule) :
    (Check.file rule.ruleType ((kind.check.run ⟨c, runcard, rule⟩).run first)).lamp =
      (Check.file rule.ruleType ((kind.check.run ⟨d, runcard, rule⟩).run second)).lamp := by
  cases kind with
  | forwardProcess =>
      refine Check.file_lookUp_lamp _ same.route fun a b steps => ?_
      rw [ForwardProcess.verdict_eq rule steps]
  | inhibitionStatus =>
      exact Check.file_lookUp_lamp _ same.inhibitions fun a b perm =>
        InhibitionStatus.verdict_lamp rule perm
  | waferCondition =>
      refine Check.file_lookUp_lamp _ same.counts fun a b counts => ?_
      rw [counts]
      rfl
  | recipeGroupBlue =>
      have none : c.toolIds = [] ↔ d.toolIds = [] := by
        simp only [List.eq_nil_iff_forall_not_mem, same.tools]
      simp only [check, RecipeGroupBlue.check, List.isEmpty_iff, none]
      split
      · rfl
      · exact Check.file_lookUp_lamp _ same.releases fun a b perm =>
          RecipeGroupBlue.verdict_lamp _ same.toSameTools perm
  | runcardOwner =>
      simp only [check, RuncardOwner.check]
      split
      · rfl
      · split
        · rfl
        · refine Check.file_lookUp_lamp _ (same.sections _) fun a b sections => ?_
          rw [sections]

end RuleKind

namespace Registry

theorem exists_kind_of_builtin {t : String} {check : Check} (found : builtin.get? t = some check) :
    ∃ kind : RuleKind, kind.name = t ∧ kind.check = check := by
  have collected : builtin = Entries.ofList (RuleKind.all.map fun k => (k.name, k.check)) := by
    rw [Entries.ofList, List.foldl_map]
    rfl
  rw [collected, Entries.get?_eq_some_iff] at found
  obtain ⟨kind, -, entry⟩ := List.mem_map.mp (Entries.mem_of_mem_ofList found)
  exact ⟨kind, congrArg Prod.fst entry, congrArg Prod.snd entry⟩

variable {first second : Source} {runcard : Runcard} {c d : Condition}

theorem dispatch_headline (same : SameGrounds first second runcard c d) (rule : Rule) :
    ((builtin.dispatch ⟨c, runcard, rule⟩).run first).headline =
      ((builtin.dispatch ⟨d, runcard, rule⟩).run second).headline := by
  have type := (builtin.dispatch_ends ⟨c, runcard, rule⟩).run first
  have type' := (builtin.dispatch_ends ⟨d, runcard, rule⟩).run second
  refine Prod.ext (type.trans type'.symm) ?_
  show Result.lamp _ = Result.lamp _
  cases found : builtin.get? rule.ruleType with
  | none => simp only [dispatch, check?, found, Inquiry.run]
  | some check =>
      obtain ⟨kind, -, rfl⟩ := exists_kind_of_builtin found
      simp only [dispatch, check?, found, Check.evaluate]
      -- The gates look at the runcard and the rule alone.
      have gates : Check.skipReason? kind.check.needsSettings ⟨c, runcard, rule⟩ =
          Check.skipReason? kind.check.needsSettings ⟨d, runcard, rule⟩ := rfl
      rw [gates]
      split
      · rfl
      · rw [Inquiry.run_map, Inquiry.run_map]
        exact kind.lamp_eq same rule

end Registry

/-! ## Conditions and runcards -/

namespace Evaluation

variable {groups : List Group} {c d : Condition}

theorem mem_keysOf_iff (same : SameTools c d) (k : String) :
    k ∈ keysOf c ↔ k ∈ keysOf d := by
  rw [keysOf, keysOf, same.recipe]
  by_cases none : (Expansion.ofRecipe d.recipe).orSets = []
  · rw [Expansion.flatten_eq_self none, Expansion.flatten_eq_self none, same.tools]
  · simp only [Expansion.mem_flatten_iff none, same.tools]

/-- A condition meets the groups that it meets by its tools as a set. -/
theorem metBy_eq (same : SameTools c d) :
    metBy groups c = metBy groups d := by
  refine List.filter_congr fun g _ => ?_
  rw [Bool.eq_iff_iff, Group.meetsAny, Group.meetsAny, List.any_eq_true, List.any_eq_true]
  simp only [mem_keysOf_iff same]

variable {first second : Source} {runcard : Runcard}

theorem tagged_headlines (same : SameGrounds first second runcard c d) :
    (tagged Registry.builtin runcard groups first c).map Result.headline =
      (tagged Registry.builtin runcard groups second d).map Result.headline := by
  simp only [tagged, metBy_eq same.toSameTools, List.map_flatMap, List.map_map]
  refine List.flatMap_congr fun g _ => List.map_congr_left fun rule _ => ?_
  exact Registry.dispatch_headline same rule

theorem run_ofCondition_headlines (same : SameGrounds first second runcard c d) :
    ((ofCondition Registry.builtin runcard (ConditionMapping.ofCondition groups c)).run
        first).headlines =
      ((ofCondition Registry.builtin runcard (ConditionMapping.ofCondition groups d)).run
        second).headlines := by
  rw [ofCondition, ofCondition, Inquiry.run_map, Inquiry.run_map]
  simp only [ConditionResult.headlines, run_results, metBy_eq same.toSameTools]
  split
  · rfl
  · rw [Consolidation.consolidate_headlines, Consolidation.consolidate_headlines,
      tagged_headlines same]

variable (groups) in
theorem run_ofRuncard_headlines {cs ds : List Condition}
    (same : List.Forall₂ (SameGrounds first second runcard) cs ds) :
    ((ofRuncard Registry.builtin runcard cs groups).run first).conditions.map
        (fun e => (e.condition, e.headlines)) =
      ((ofRuncard Registry.builtin runcard ds groups).run second).conditions.map
        fun e => (e.condition, e.headlines) := by
  by_cases any : groups = []
  · rw [ofRuncard_eq, ofRuncard_eq, considered, considered, if_pos any, if_pos any]
    rfl
  · rw [run_ofRuncard_conditions any, run_ofRuncard_conditions any, List.map_map, List.map_map]
    refine (map_eq_of_forall₂ (same.imp fun c d here => ?_)).symm
    have label : ((ofCondition Registry.builtin runcard
        (ConditionMapping.ofCondition groups d)).run second).condition =
          ((ofCondition Registry.builtin runcard
            (ConditionMapping.ofCondition groups c)).run first).condition := by
      rw [ofCondition, ofCondition, Inquiry.run_map, Inquiry.run_map]
      exact here.label.symm
    exact Prod.ext label (run_ofCondition_headlines here).symm

end Evaluation
end RuncardReview
