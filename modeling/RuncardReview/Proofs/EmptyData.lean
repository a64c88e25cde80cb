import RuncardReview.Check.Registry
import RuncardReview.Proofs.ReleasedTools
import RuncardReview.Proofs.RouteWindow

/-!
# Rules about which there is no data

Four kinds of checks ask for records and have a policy for the case that there are none.  Each
comes to it in its own way: by the verdict of the policy, by an error that is filed as red, or by
tools that all fail because a tool without records satisfies no bracket.  The lamp is that of the
policy in each case.

**Results.**
* `EmptyPolicy.holds_iff`: which policy holds for a rule.
* `RecipeGroupBlue.failing_nil_ne_nil`: without records every tool fails.
* `RuleKind.exists_policy_of_noAnswer`: the lamp of a rule about which there is no data.
-/

namespace RuncardReview

namespace EmptyPolicy

/-- The settings of the rule name the policy, in any case of the letters. -/
def Named (rule : Rule) (p : EmptyPolicy) : Prop :=
  ∃ s t, rule.settings = some s ∧ s.get? "emptyDataPolicy" = some (.text t) ∧
    Text.lowerAscii t = p.name

/-- The policy of a rule is the one that its settings name, or else the default. -/
inductive Holds (rule : Rule) (default : EmptyPolicy) : EmptyPolicy → Prop
  | named {p : EmptyPolicy} (name : Named rule p) : Holds rule default p
  | unnamed (none : ∀ p, ¬Named rule p) : Holds rule default default

/-- The number of the lamp for what was not found. -/
def code : EmptyPolicy → Nat
  | skip => 0
  | pass => 1
  | fail => 3

theorem lamp_code (p : EmptyPolicy) : p.lamp.code = p.code := by
  cases p <;> rfl

theorem ofName?_eq_some_iff {s : String} {p : EmptyPolicy} : ofName? s = some p ↔ s = p.name := by
  constructor
  · intro found
    unfold ofName? at found
    split_ifs at found with skip pass fail
    all_goals cases found
    · exact skip
    · exact pass
    · exact fail
  · rintro rfl
    cases p <;> rfl

variable {rule : Rule} {default p : EmptyPolicy}

theorem ofRule_of_named (name : Named rule p) : ofRule rule default = p := by
  obtain ⟨s, t, configured, found, name⟩ := name
  have read : s.text "emptyDataPolicy" "" = t := by rw [Settings.text, found]; rfl
  simp only [ofRule, configured, read, ofName?_eq_some_iff.mpr name, Option.getD_some]

/-- A text that names a policy is the one of the setting, as the empty text names none. -/
theorem named_of_text {s : Settings} (configured : rule.settings = some s)
    (name : Text.lowerAscii (s.text "emptyDataPolicy" "") = p.name) : Named rule p := by
  rw [Settings.text] at name
  cases found : (s.get? "emptyDataPolicy").bind Value.text? with
  | none =>
      rw [found] at name
      cases p <;> exact absurd name (by decide)
  | some t =>
      rw [found] at name
      obtain ⟨v, stored, view⟩ := Option.bind_eq_some_iff.mp found
      cases v with
      | text u =>
          cases view
          exact ⟨s, t, configured, stored, name⟩
      | _ => cases view

theorem ofRule_of_unnamed (none : ∀ p, ¬Named rule p) : ofRule rule default = default := by
  unfold ofRule
  split
  · rfl
  · rename_i s configured
    cases read : ofName? (Text.lowerAscii (s.text "emptyDataPolicy" "")) with
    | none => rfl
    | some p => exact absurd (named_of_text configured (ofName?_eq_some_iff.mp read)) (none p)

/-- Exactly one policy holds for a rule. -/
theorem holds_iff : Holds rule default p ↔ ofRule rule default = p := by
  constructor
  · rintro (name | none)
    · exact ofRule_of_named name
    · exact ofRule_of_unnamed none
  · rintro rfl
    by_cases some : ∃ p, Named rule p
    · obtain ⟨p, name⟩ := some
      rw [ofRule_of_named name]
      exact .named name
    · have none : ∀ p, ¬Named rule p := not_exists.mp some
      rw [ofRule_of_unnamed none]
      exact .unnamed none

end EmptyPolicy

/-! ## The four checks -/

section NoData

variable {input : CheckInput} {source : Source}

theorem ForwardProcess.lamp_of_noAnswer
    (passes : Check.skipReason? check.needsSettings input = none)
    (none : source (.forward input.runcard.id input.condition.label) = .ok []) :
    ((check.evaluate input).run source).lamp = (EmptyPolicy.ofRule input.rule .pass).lamp := by
  obtain ⟨s, configured⟩ := Check.exists_settings passes
  have nothing : window s [] = [] := by simp [window]
  rw [Check.run_evaluate_lookUp passes none rfl, Result.ofVerdict,
    verdict_of_none configured nothing, Verdict.note_lamp, EmptyPolicy.verdict_lamp]

theorem InhibitionStatus.lamp_of_noAnswer
    (passes : Check.skipReason? check.needsSettings input = none)
    (none : source (.inhibition input.condition.toolIds input.condition.recipe) = .ok []) :
    ((check.evaluate input).run source).lamp = (EmptyPolicy.ofRule input.rule .pass).lamp := by
  rw [Check.run_evaluate_lookUp passes none rfl, Result.ofVerdict]
  exact EmptyPolicy.verdict_lamp _ _

/-- To fail without counts is an error, which is filed as red. -/
theorem WaferCondition.lamp_of_noAnswer
    (passes : Check.skipReason? check.needsSettings input = none)
    (none : source (.wafer input.runcard.id) = .ok (.none : Option WaferCounts)) :
    ((check.evaluate input).run source).lamp = (EmptyPolicy.ofRule input.rule .fail).lamp := by
  have asked : (check.run input).run source = outcome input .none := by
    simp only [check, Check.lookUp, Inquiry.run, none]
  rw [Check.run_evaluate passes, asked, outcome]
  cases EmptyPolicy.ofRule input.rule .fail <;> rfl

namespace RecipeGroupBlue

/-- There is an or-set whatever the recipe, and a tool without records does not satisfy it. -/
theorem lacks_nil (sets : List Recipe.OrSet) (tool : String) : Lacks sets [] tool := by
  obtain ⟨set, demanded⟩ : ∃ set, set ∈ (if sets = [] then [[]] else sets) := by
    split
    · exact ⟨[], List.mem_cons_self⟩
    · rename_i some
      exact List.exists_mem_of_ne_nil sets some
  exact ⟨set, demanded, fun r member => nomatch member⟩

theorem failing_nil_ne_nil (recipe : String) {tools : List String} (any : tools ≠ []) :
    failing recipe tools [] ≠ [] := by
  obtain ⟨tool, member⟩ := List.exists_mem_of_ne_nil tools any
  have fails : tool ∈ failing recipe tools [] :=
    ((firstSeen_failing recipe tools []).mem tool).mpr ⟨tool, member, rfl, lacks_nil _ tool⟩
  exact List.ne_nil_of_mem fails

theorem lamp_of_noAnswer (passes : Check.skipReason? check.needsSettings input = none)
    (none : source (.release input.condition.recipe input.condition.toolIds) = .ok []) :
    ((check.evaluate input).run source).lamp = (EmptyPolicy.ofRule input.rule .fail).lamp := by
  by_cases asked : input.condition.toolIds = []
  · -- Without tools the policy decides before anything is asked.
    have unasked : check.run input =
        .done (.ok ((EmptyPolicy.ofRule input.rule .fail).verdict "tool")) := by
      simp only [check, asked, List.isEmpty_nil, if_true]
    rw [Check.run_evaluate passes, unasked]
    exact EmptyPolicy.verdict_lamp _ _
  · by_cases policy : EmptyPolicy.ofRule input.rule .fail = .fail
    · rw [policy]
      exact (judges_evaluate passes asked none (Or.inr policy)).fails.mpr
        (failing_nil_ne_nil _ asked)
    · have asks : check.run input =
          Check.lookUp (.release input.condition.recipe input.condition.toolIds) fun records =>
            .ok (verdict (EmptyPolicy.ofRule input.rule .fail) input.condition records) := by
        simp only [check, List.isEmpty_iff, if_neg asked]
      have decided : verdict (EmptyPolicy.ofRule input.rule .fail) input.condition [] =
          (EmptyPolicy.ofRule input.rule .fail).verdict "release record" := by
        simp [verdict, policy]
      rw [Check.run_evaluate_lookUp passes none asks, Result.ofVerdict, decided,
        EmptyPolicy.verdict_lamp]

end RecipeGroupBlue

end NoData

/-! ## The common law -/

/-- What a kind of checks asks for, and the policy it has by default if there is none. -/
inductive LooksUp : RuleKind → (CheckInput → Query) → EmptyPolicy → Prop
  | forwardProcess :
      LooksUp .forwardProcess (fun i => .forward i.runcard.id i.condition.label) .pass
  | inhibitionStatus :
      LooksUp .inhibitionStatus (fun i => .inhibition i.condition.toolIds i.condition.recipe) .pass
  | waferCondition : LooksUp .waferCondition (fun i => .wafer i.runcard.id) .fail
  | recipeGroupBlue :
      LooksUp .recipeGroupBlue (fun i => .release i.condition.recipe i.condition.toolIds) .fail

/-- A rule that passes the gates, and about which there is no data, gets the lamp of its
policy. -/
theorem RuleKind.exists_policy_of_noAnswer {kind : RuleKind} {lookup : CheckInput → Query}
    {default : EmptyPolicy} {input : CheckInput} {source : Source}
    (asks : LooksUp kind lookup default)
    (passes : Check.skipReason? kind.check.needsSettings input = none)
    (none : source (lookup input) = .ok (lookup input).noAnswer) :
    ∃ p, EmptyPolicy.Holds input.rule default p ∧
      ((kind.check.evaluate input).run source).lamp.code = p.code := by
  refine ⟨EmptyPolicy.ofRule input.rule default, EmptyPolicy.holds_iff.mpr rfl, ?_⟩
  rw [← EmptyPolicy.lamp_code]
  cases asks with
  | forwardProcess => exact congrArg Lamp.code (ForwardProcess.lamp_of_noAnswer passes none)
  | inhibitionStatus => exact congrArg Lamp.code (InhibitionStatus.lamp_of_noAnswer passes none)
  | waferCondition => exact congrArg Lamp.code (WaferCondition.lamp_of_noAnswer passes none)
  | recipeGroupBlue => exact congrArg Lamp.code (RecipeGroupBlue.lamp_of_noAnswer passes none)

/-- Three tools without records fail for a recipe with brackets, and a route without steps is
passed over as the setting has it. -/
theorem RuleKind.exists_policy_of_noAnswer_of_empty :
    let runcard : Runcard := { Runcard.ofId "RC-1" with part := some "TM1" }
    let condition : Condition := ⟨"C1", "T1,T2,T3", "R\x7bcAB\x7d"⟩
    let settings : Settings := Entries.empty.insert "emptyDataPolicy" (.text "Skip")
    let blue : CheckInput := ⟨condition, runcard, ⟨"RecipeGroupCheckBlue", ["Prod"], none⟩⟩
    let forward : CheckInput := ⟨condition, runcard, ⟨"ForwardProcess", ["Prod"], some settings⟩⟩
    EmptyPolicy.Holds blue.rule .fail .fail ∧
      (((RuleKind.check .recipeGroupBlue).evaluate blue).run Source.empty).lamp.code = 3 ∧
      EmptyPolicy.Holds forward.rule .pass .skip ∧
      (((RuleKind.check .forwardProcess).evaluate forward).run Source.empty).lamp.code = 0 := by
  intro runcard condition settings blue forward
  have unset : EmptyPolicy.Holds blue.rule .fail .fail :=
    .unnamed fun p => by rintro ⟨s, t, configured, -⟩; cases configured
  have named : EmptyPolicy.Holds forward.rule .pass .skip :=
    .named ⟨settings, "Skip", rfl, by rw [Entries.get?_insert, if_pos rfl], by decide⟩
  obtain ⟨p, holds, lamp⟩ := @RuleKind.exists_policy_of_noAnswer _ _ _ blue Source.empty
    .recipeGroupBlue (by decide +kernel) rfl
  obtain ⟨q, holds', lamp'⟩ := @RuleKind.exists_policy_of_noAnswer _ _ _ forward Source.empty
    .forwardProcess (by decide +kernel) rfl
  obtain rfl := (EmptyPolicy.holds_iff.mp unset).symm.trans (EmptyPolicy.holds_iff.mp holds)
  obtain rfl := (EmptyPolicy.holds_iff.mp named).symm.trans (EmptyPolicy.holds_iff.mp holds')
  exact ⟨unset, lamp, named, lamp'⟩

end RuncardReview
