import Mathlib.Logic.Relation
import RuncardReview.Proofs.RouteWindow

/-!
# Tighter settings for a route

The settings of a rule on the next steps of a route are tightened by looking at more steps, by
asking for one more pattern in the tools, by leaving out one of several patterns for the recipes,
and by the first such pattern, since without any each recipe will do.  All of this comes down to two
things: more records are checked, and those that pass the new patterns pass the old ones.

What a rule finds thereby only grows.  Its policy has to be `pass`: with another one a window that
is no longer empty may well have a lower lamp than the policy gave.

**Results.**
* `Tightens.stricter`: what one change does.
* `failing_sublist`: the violations under stricter settings.
* `evaluate_stricter`: the results of a rule before and after any number of changes.
-/

namespace RuncardReview

namespace Settings

/-- Two settings differ at most under one name. -/
def SameBut (name : String) (s t : Settings) : Prop :=
  ∀ k, k ≠ name → t.get? k = s.get? k

variable {s t : Settings} {name k : String}

theorem sameBut_insert (s : Settings) (name : String) (v : Value) :
    SameBut name s (s.insert name v) := by
  intro k other
  rw [Entries.get?_insert, if_neg other.symm]

theorem SameBut.texts (same : SameBut name s t) (other : k ≠ name) :
    t.texts k = s.texts k := by
  rw [Settings.texts, Settings.texts, same k other]

theorem SameBut.bool (same : SameBut name s t) (other : k ≠ name) (default : Bool) :
    t.bool k default = s.bool k default := by
  rw [Settings.bool, Settings.bool, same k other]

theorem SameBut.text (same : SameBut name s t) (other : k ≠ name) (default : String) :
    t.text k default = s.text k default := by
  rw [Settings.text, Settings.text, same k other]

theorem SameBut.int (same : SameBut name s t) (other : k ≠ name) (default : Int64) :
    t.int k default = s.int k default := by
  rw [Settings.int, Settings.int, same k other]

end Settings

namespace ForwardProcess

open Settings (SameBut)

/-- One change that makes the settings of a route tighter. -/
inductive Tightens : Settings → Settings → Prop
  /-- At least as many steps. -/
  | steps {s t : Settings} : SameBut "forwardSteps" s t → limit s ≤ limit t → Tightens s t
  /-- One more pattern for the tools. -/
  | tool {s t : Settings} {front back : List String} {pattern : String} :
      SameBut "toolIds" s t → s.texts "toolIds" = front ++ back →
      t.texts "toolIds" = front ++ pattern :: back → Tightens s t
  /-- One pattern less for the recipes, of several. -/
  | recipe {s t : Settings} {front back : List String} {pattern : String} :
      SameBut "recipeIds" s t → s.texts "recipeIds" = front ++ pattern :: back →
      t.texts "recipeIds" = front ++ back → front ++ back ≠ [] → Tightens s t
  /-- The first pattern for the recipes. -/
  | firstRecipe {s t : Settings} {pattern : String} :
      SameBut "recipeIds" s t → s.texts "recipeIds" = [] → t.texts "recipeIds" = [pattern] →
      Tightens s t

/-- Settings under which more records are checked, and fewer of them pass. -/
structure Stricter (s t : Settings) : Prop where
  steps : stepCount s ≤ stepCount t
  measurements : t.bool "measurementOnly" false = s.bool "measurementOnly" false
  passes : ∀ r, passes (t.texts "recipeIds") (t.texts "toolIds") r = true →
    passes (s.texts "recipeIds") (s.texts "toolIds") r = true
  policy : t.text "emptyDataPolicy" "" = s.text "emptyDataPolicy" ""

/-- The steps that a result names as violations. -/
def failSteps (result : Result) : List Value :=
  match result.detail.get? "failSteps" with
  | some (.list steps) => steps
  | _ => []

/-! ## Stricter settings -/

section Settings

variable {s t : Settings} {recipes tools front back : List String} {pattern : String}
variable {r : ProcessRecord}

theorem Stricter.refl (s : Settings) :
    Stricter s s :=
  ⟨Nat.le_refl _, rfl, fun _ h => h, rfl⟩

theorem Stricter.trans {u : Settings} (first : Stricter s t) (second : Stricter t u) :
    Stricter s u :=
  ⟨Nat.le_trans first.steps second.steps, second.measurements.trans first.measurements,
    fun r h => first.passes r (second.passes r h), second.policy.trans first.policy⟩

theorem passes_of_more_tools (passed : passes recipes (front ++ pattern :: back) r = true) :
    passes recipes (front ++ back) r = true := by
  simp only [passes, Bool.and_eq_true, List.all_append, List.all_cons] at passed ⊢
  obtain ⟨recipe, before, -, behind⟩ := passed
  exact ⟨recipe, before, behind⟩

/-- One of the patterns that are left holds, so one of all of them does. -/
theorem passes_of_fewer_recipes (some : front ++ back ≠ [])
    (passed : passes (front ++ back) tools r = true) :
    passes (front ++ pattern :: back) tools r = true := by
  have any : (front ++ back).isEmpty = false := List.isEmpty_eq_false_iff.mpr some
  simp only [passes, any, Bool.false_or, Bool.and_eq_true, List.any_append, List.any_cons,
    Bool.or_eq_true] at passed ⊢
  obtain ⟨before | behind, tool⟩ := passed
  · exact ⟨Or.inr (Or.inl before), tool⟩
  · exact ⟨Or.inr (Or.inr (Or.inr behind)), tool⟩

theorem passes_of_first_recipe (passed : passes [pattern] tools r = true) :
    passes [] tools r = true := by
  simp only [passes, Bool.and_eq_true] at passed ⊢
  exact ⟨rfl, passed.2⟩

/-- Each change leaves the other settings alone. -/
theorem Tightens.stricter (tightened : Tightens s t) :
    Stricter s t := by
  cases tightened with
  | steps same more =>
      refine ⟨?_, same.bool (by decide) _, fun r passed => ?_, same.text (by decide) _⟩
      · rwa [limit_eq, limit_eq]
      · rwa [same.texts (by decide), same.texts (by decide)] at passed
  | tool same before after =>
      refine ⟨?_, same.bool (by decide) _, fun r passed => ?_, same.text (by decide) _⟩
      · rw [stepCount, stepCount, same.int (by decide)]
      · rw [same.texts (by decide), after] at passed
        rw [before]
        exact passes_of_more_tools passed
  | recipe same before after some =>
      refine ⟨?_, same.bool (by decide) _, fun r passed => ?_, same.text (by decide) _⟩
      · rw [stepCount, stepCount, same.int (by decide)]
      · rw [same.texts (k := "toolIds") (by decide), after] at passed
        rw [before]
        exact passes_of_fewer_recipes some passed
  | firstRecipe same before after =>
      refine ⟨?_, same.bool (by decide) _, fun r passed => ?_, same.text (by decide) _⟩
      · rw [stepCount, stepCount, same.int (by decide)]
      · rw [same.texts (k := "toolIds") (by decide), after] at passed
        rw [before]
        exact passes_of_first_recipe passed

theorem stricter_of_tightens (tightened : Relation.ReflTransGen Tightens s t) :
    Stricter s t := by
  induction tightened with
  | refl => exact .refl s
  | tail _ last ih => exact ih.trans last.stricter

end Settings

/-! ## The results -/

section Results

variable {s t : Settings} {rule : Rule} {records : List ProcessRecord}

/-- The records that violated the old settings were checked for the old patterns, which the new
ones do not relax, and they are still checked. -/
theorem failing_sublist (stricter : Stricter s t) (records : List ProcessRecord) :
    (failing s records).Sublist (failing t records) := by
  have more : (window s records).Sublist (window t records) := by
    simp only [window, stricter.measurements]
    exact (List.take_sublist_take_left stricter.steps).filter _
  refine (more.filter _).trans (List.monotone_filter_right _ fun r violates => ?_)
  rw [Bool.not_eq_true', Bool.eq_false_iff] at violates ⊢
  exact mt (stricter.passes r) violates

/-- Under this policy the violations alone make the lamp, be there a window or none. -/
theorem verdict_lamp_of_pass (configured : rule.settings = some s)
    (lenient : EmptyPolicy.ofRule rule .pass = .pass) :
    (verdict rule records).lamp = if failing s records = [] then .pass else .fail := by
  by_cases none : window s records = []
  · rw [verdict_of_none configured none, lenient, failing, none]
    rfl
  · rw [verdict_of_some configured none]
    rfl

theorem failSteps_verdict (configured : rule.settings = some s) (ruleType : String) :
    failSteps (Result.ofVerdict ruleType (verdict rule records)) =
      (failing s records).map fun r => .count r.step.toNat := by
  by_cases none : window s records = []
  · have silent : ∀ p : EmptyPolicy,
        (p.verdict "forward process").detail.get? "failSteps" = .none := by
      intro p
      cases p <;> rfl
    rw [verdict_of_none configured none, failSteps, Result.ofVerdict,
      Verdict.get?_note_of_ne _ (by decide), silent, failing, none]
    rfl
  · rw [verdict_of_some configured none, failSteps, Result.ofVerdict, Verdict.get?_note_self]

/-- What is said of the same records, before and after. -/
theorem verdict_grows {rule' : Rule} (stricter : Stricter s t) (configured : rule.settings = some s)
    (configured' : rule'.settings = some t) (lenient : EmptyPolicy.ofRule rule .pass = .pass)
    (lenient' : EmptyPolicy.ofRule rule' .pass = .pass) (records : List ProcessRecord)
    (ruleType : String) :
    (verdict rule records).lamp ≤ (verdict rule' records).lamp ∧
      (failSteps (Result.ofVerdict ruleType (verdict rule records))).Sublist
        (failSteps (Result.ofVerdict ruleType (verdict rule' records))) := by
  have grown := failing_sublist stricter records
  rw [failSteps_verdict configured, failSteps_verdict configured',
    verdict_lamp_of_pass configured lenient, verdict_lamp_of_pass configured' lenient']
  refine ⟨?_, grown.map _⟩
  by_cases none : failing t records = []
  · rw [none] at grown
    rw [if_pos none, if_pos (List.sublist_nil.mp grown)]
  · rw [if_neg none]
    split <;> decide

end Results

/-- If the settings of a rule are tightened, and its policy is to pass without data, its lamp does
not get lower, and it still names the steps that it has named. -/
theorem evaluate_stricter (condition : Condition) (runcard : Runcard) (rule : Rule)
    (source : Source) (s t : Settings)
    (lenient : EmptyPolicy.ofRule (rule.withSettings s) .pass = .pass)
    (tightened : Relation.ReflTransGen Tightens s t) :
    let before := (check.evaluate ⟨condition, runcard, rule.withSettings s⟩).run source
    let after := (check.evaluate ⟨condition, runcard, rule.withSettings t⟩).run source
    before.lamp ≤ after.lamp ∧ (failSteps before).Sublist (failSteps after) := by
  have stricter := stricter_of_tightens tightened
  have lenient' : EmptyPolicy.ofRule (rule.withSettings t) .pass = .pass := by
    have same : EmptyPolicy.ofRule (rule.withSettings t) .pass =
        EmptyPolicy.ofRule (rule.withSettings s) .pass := by
      simp only [EmptyPolicy.ofRule, Rule.withSettings, stricter.policy]
    exact same.trans lenient
  -- Both rules have settings and the same lot types, so the gates treat them alike.
  have gates : Check.skipReason? check.needsSettings ⟨condition, runcard, rule.withSettings t⟩ =
      Check.skipReason? check.needsSettings ⟨condition, runcard, rule.withSettings s⟩ := rfl
  intro before after
  have unchanged : before = after →
      before.lamp ≤ after.lamp ∧ (failSteps before).Sublist (failSteps after) := fun same =>
    same ▸ ⟨Nat.le_refl _, List.Sublist.refl _⟩
  cases reason : Check.skipReason? check.needsSettings
      ⟨condition, runcard, rule.withSettings s⟩ with
  | some why =>
      refine unchanged ?_
      simp only [before, after, Check.evaluate, gates, reason]
      rfl
  | none =>
      cases found : source (.forward runcard.id condition.label) with
      | ok records =>
          have first : before =
              Result.ofVerdict rule.ruleType (verdict (rule.withSettings s) records) :=
            Check.run_evaluate_lookUp reason found rfl
          have second : after =
              Result.ofVerdict rule.ruleType (verdict (rule.withSettings t) records) :=
            Check.run_evaluate_lookUp (gates.trans reason) found rfl
          rw [first, second]
          exact verdict_grows stricter rfl rfl lenient lenient' records rule.ruleType
      | error | panicked =>
          refine unchanged ?_
          simp only [before, after, Check.run_evaluate reason,
            Check.run_evaluate (gates.trans reason), check, Check.lookUp, Inquiry.run, found]
          rfl

/-! ## Three changes -/

namespace Tightened

def route : List ProcessRecord :=
  [⟨20, "CD-MEAS", "MT01", "Measurement"⟩, ⟨10, "ETCH-MAIN", "ET01", "Process"⟩]

def source : Source
  | .forward .. => .ok route
  | q => .ok q.noAnswer

def rule : Rule :=
  ⟨"ForwardProcess", ["Prod"], none⟩

def runcard : Runcard :=
  { Runcard.ofId "RC-1" with part := some "TM1" }

/-- One step is looked at, and it is all right. -/
def loose : Settings :=
  Entries.ofList [("forwardSteps", .int 1), ("recipeIds", .text "%ETCH, MEAS"),
    ("toolIds", .list [.text "T0"])]

def longer : Settings :=
  loose.insert "forwardSteps" (.text "2")

def narrower : Settings :=
  longer.insert "recipeIds" (.list [.text " MEAS "])

def tight : Settings :=
  narrower.insert "toolIds" (.text "T0,%ET")

def result (s : Settings) : Result :=
  (check.evaluate ⟨⟨"C1", "T1", "R"⟩, runcard, rule.withSettings s⟩).run source

/-- Turned round, the route is in order. -/
theorem failing_route (s : Settings) :
    failing s route =
      ((route.reverse.take (stepCount s)).filter fun r =>
        !s.bool "measurementOnly" false || r.category = "Measurement").filter fun r =>
          !passes (s.texts "recipeIds") (s.texts "toolIds") r := by
  have sorted : (route.mergeSort fun a b => decide (a.step ≤ b.step)) = route.reverse := by
    simp [route, List.mergeSort]
  simp only [failing, window, sorted]

theorem failSteps_result (s : Settings) :
    failSteps (result s) = (failing s route).map fun r => .count r.step.toNat := by
  have found : source (.forward "RC-1" "C1") = .ok route := rfl
  have ended : result s = Result.ofVerdict rule.ruleType (verdict (rule.withSettings s) route) :=
    Check.run_evaluate_lookUp rfl found rfl
  rw [ended, failSteps_verdict rfl]

end Tightened

open Tightened in
/-- The second change makes the first step of the route a violation, and the third one the other. -/
theorem evaluate_stricter_of_three_changes :
    EmptyPolicy.ofRule (rule.withSettings loose) .pass = .pass ∧
      Relation.ReflTransGen Tightens loose tight ∧
      (result loose).lamp ≤ (result tight).lamp ∧
      (failSteps (result loose)).Sublist (failSteps (result tight)) ∧
      failSteps (result longer) = [] ∧
      failSteps (result narrower) = [.count 10] ∧
      failSteps (result tight) = [.count 10, .count 20] := by
  have first : Tightens loose longer :=
    .steps (Settings.sameBut_insert _ _ _) (by decide +kernel)
  have second : Tightens longer narrower :=
    @Tightens.recipe _ _ [] ["MEAS"] "%ETCH" (Settings.sameBut_insert _ _ _) (by decide +kernel)
      (by decide +kernel) (by decide)
  have third : Tightens narrower tight :=
    @Tightens.tool _ _ ["T0"] [] "%ET" (Settings.sameBut_insert _ _ _) (by decide +kernel)
      (by decide +kernel)
  have tightened : Relation.ReflTransGen Tightens loose tight :=
    ((Relation.ReflTransGen.single first).tail second).tail third
  have lenient : EmptyPolicy.ofRule (rule.withSettings loose) .pass = .pass := by decide +kernel
  have kept := evaluate_stricter ⟨"C1", "T1", "R"⟩ runcard rule source loose tight lenient tightened
  have clean : failing longer route = [] := by
    rw [failing_route]
    decide +kernel
  have one : failing narrower route = [⟨10, "ETCH-MAIN", "ET01", "Process"⟩] := by
    rw [failing_route]
    decide +kernel
  have both : failing tight route = route.reverse := by
    rw [failing_route]
    decide +kernel
  refine ⟨lenient, tightened, kept.1, kept.2, ?_, ?_, ?_⟩
  · rw [failSteps_result, clean]
    rfl
  · rw [failSteps_result, one]
    rfl
  · rw [failSteps_result, both]
    rfl

end ForwardProcess
end RuncardReview
