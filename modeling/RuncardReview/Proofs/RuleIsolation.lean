import RuncardReview.Proofs.InquiryEnds
import RuncardReview.Proofs.RuncardResults

/-!
# A failing check stays with its rule type

A check may come to an error, break off, or be missing from the registry.  None of this
reaches beyond the rule: it is filed as a red result with the text of what went wrong.
What a runcard's result consists of, condition by condition and rule type by rule type,
is fixed by the groups alone, and two registries that differ in one rule type give
results that differ in this type at most.

**Results.**
* `ofRuncard_outline`: the conditions, keys and rule types, whatever the lookups and the
  checks come to.
* `run_dispatch_of_fails`: the result of a rule that fails.
* `consolidate_alike`: consolidation keeps the rule types apart.
* `ofRuncard_isolates`: containment under each registry, and isolation between two.
-/

namespace RuncardReview

/-- Two results of one rule type, which differ at most if this is the type `x`. -/
structure Result.Alike (x : String) (r s : Result) : Prop where
  ruleType : r.ruleType = s.ruleType
  same : r.ruleType ≠ x → r = s

/-- Two reports on one condition that differ at most in the results of the type `x`. -/
structure ConditionResult.Alike (x : String) (d e : ConditionResult) : Prop where
  condition : d.condition = e.condition
  toolChambers : d.toolChambers = e.toolChambers
  results : List.Forall₂ (Result.Alike x) d.results e.results

/-- The condition, the keys and the rule types of a report. -/
def ConditionResult.outline (e : ConditionResult) : String × List String × List String :=
  (e.condition, e.toolChambers, e.results.map Result.ruleType)

theorem Result.Alike.refl (x : String) (r : Result) :
    r.Alike x r :=
  ⟨rfl, fun _ => rfl⟩

theorem Result.Alike.note {x : String} {r s : Result} (h : r.Alike x s) (name : String)
    (value : Value) :
    (r.note name value).Alike x (s.note name value) :=
  ⟨h.ruleType, fun other => congrArg (fun t => t.note name value) (h.same other)⟩

/-! ## Consolidation -/

namespace Consolidation

variable {x : String} {entries others : List Result}

theorem ruleTypes_eq_of_alike (alike : List.Forall₂ (Result.Alike x) entries others) :
    entries.map Result.ruleType = others.map Result.ruleType := by
  induction alike with
  | nil => rfl
  | cons first _ ih => rw [List.map_cons, List.map_cons, first.ruleType, ih]

theorem filter_eq_of_alike (alike : List.Forall₂ (Result.Alike x) entries others) {t : String}
    (other : t ≠ x) :
    entries.filter (fun r => r.ruleType = t) = others.filter fun r => r.ruleType = t := by
  induction alike with
  | nil => rfl
  | @cons r s entries others first _ ih =>
      by_cases h : r.ruleType = t
      · have same : r = s := first.same fun e => other (h.symm.trans e)
        simp [← same, h, ih]
      · have h' : s.ruleType ≠ t := fun e => h (first.ruleType.trans e)
        simp [h, h', ih]

/-- The bucket of a rule type gathers from nothing but the results of this type. -/
theorem consolidate_alike (alike : List.Forall₂ (Result.Alike x) entries others) :
    List.Forall₂ (Result.Alike x) (consolidate entries) (consolidate others) := by
  rw [consolidate_eq_map, consolidate_eq_map, ← ruleTypes_eq_of_alike alike,
    List.forall₂_map_left_iff, List.forall₂_map_right_iff, List.forall₂_same]
  intro t _
  refine ⟨by simp, fun other => ?_⟩
  have other : t ≠ x := by simpa using other
  rw [bucketOf, bucketOf, filter_eq_of_alike alike other]

end Consolidation

/-! ## Rules that fail -/

/-- A rule fails with a message: no check is registered for its type, or it passes the
gates and its check comes to an error or breaks off. -/
inductive Fails (registry : Registry) (source : Source) (input : CheckInput) : String → Prop
  | unknown : registry.get? input.rule.ruleType = none →
      Fails registry source input ("unknown rule type '" ++ input.rule.ruleType ++ "'")
  | erred {c : Check} {e : CheckError} : registry.get? input.rule.ruleType = some c →
      Check.skipReason? c.needsSettings input = none →
      (c.run input).run source = .error e →
      Fails registry source input e.message
  | brokeOff {c : Check} {p : Payload} : registry.get? input.rule.ruleType = some c →
      Check.skipReason? c.needsSettings input = none →
      (c.run input).run source = .panicked p →
      Fails registry source input ("check panicked: " ++ p.message)

namespace Registry

variable {registry : Registry} {source : Source} {input : CheckInput}

theorem run_dispatch_of_fails {message : String} (h : Fails registry source input message) :
    (registry.dispatch input).run source = Result.failed input.rule.ruleType message := by
  cases h with
  | unknown unregistered => simp only [dispatch, check?, unregistered, Inquiry.run]; rfl
  | erred registered passes errs =>
      simp only [dispatch, check?, registered, Check.evaluate, passes, Inquiry.run_map, errs]
      rfl
  | brokeOff registered passes breaks =>
      simp only [dispatch, check?, registered, Check.evaluate, passes, Inquiry.run_map, breaks]
      rfl

/-- A rule gets a result of its own type, whatever comes back to its check. -/
theorem dispatch_ends (registry : Registry) (input : CheckInput) :
    (registry.dispatch input).Ends fun r => r.ruleType = input.rule.ruleType := by
  unfold dispatch
  split
  · unfold Check.evaluate
    split
    · exact rfl
    · refine Inquiry.ends_map (fun outcome => ?_) _
      cases outcome <;> rfl
  · exact rfl

theorem dispatch_alike {first second : Registry} {x : String}
    (agree : ∀ t, t ≠ x → first.get? t = second.get? t) (source : Source)
    (input : CheckInput) :
    ((first.dispatch input).run source).Alike x ((second.dispatch input).run source) := by
  have left := (first.dispatch_ends input).run source
  have right := (second.dispatch_ends input).run source
  refine ⟨left.trans right.symm, fun other => ?_⟩
  have same : first.check? input.rule.ruleType = second.check? input.rule.ruleType := by
    rw [check?, check?, agree _ (left ▸ other)]
  rw [dispatch, dispatch, same]

end Registry

namespace Evaluation

open Distinct (firsts)

/-- The conditions that are evaluated: all of them if there are groups. -/
def considered (groups : List Group) (conditions : List Condition) : List Condition :=
  if groups = [] then [] else conditions

theorem ofRuncard_eq (registry : Registry) (runcard : Runcard) (conditions : List Condition)
    (groups : List Group) :
    ofRuncard registry runcard conditions groups =
      (inOrder (fun c => ofCondition registry runcard (ConditionMapping.ofCondition groups c))
        (considered groups conditions)).map fun cs => ⟨runcard.id, cs⟩ := by
  rw [← inOrder_map]
  cases groups <;> cases conditions <;> rfl

/-! ## What does not depend on the checks -/

/-- The rule types of the groups that a condition meets, in order of first appearance. -/
def ruleTypesOf (groups : List Group) (c : Condition) : List String :=
  if metBy groups c = [] then ["no-group"]
  else firsts ((metBy groups c).flatMap fun g => g.rules.map Rule.ruleType)

/-- For each condition its label, its keys and the rule types of the groups it meets. -/
def outline (groups : List Group) (conditions : List Condition) :
    List (String × List String × List String) :=
  (considered groups conditions).map fun c => (c.label, keysOf c, ruleTypesOf groups c)

theorem map_eq_of_forall₂ {α β γ : Type} {f : α → γ} {g : β → γ} {l : List α} {m : List β}
    (h : List.Forall₂ (fun a b => g b = f a) l m) :
    m.map g = l.map f := by
  induction h with
  | nil => rfl
  | cons first _ ih => rw [List.map_cons, List.map_cons, first, ih]

section Outline

variable (registry : Registry) (runcard : Runcard) (groups : List Group)

theorem taggedRules_ends (c : Condition) (gs : List GroupRules) :
    (inOrder (dispatchTagged registry runcard c) (taggedRules gs)).Ends fun rs =>
      rs.map Result.ruleType = gs.flatMap fun g => g.rules.map Rule.ruleType := by
  have each : ∀ entry ∈ taggedRules gs, (dispatchTagged registry runcard c entry).Ends
      fun r => r.ruleType = entry.2.ruleType := by
    intro entry _
    exact (registry.dispatch_ends _).map fun r h => h
  have types : (taggedRules gs).map (fun entry => entry.2.ruleType) =
      gs.flatMap fun g => g.rules.map Rule.ruleType := by
    simp [taggedRules, List.map_flatMap, Function.comp_def]
  rw [← types]
  exact (inOrder_ends each).imp fun rs h => map_eq_of_forall₂ h

theorem results_ends (c : Condition) :
    (results registry runcard (ConditionMapping.ofCondition groups c)).Ends fun rs =>
      rs.map Result.ruleType = ruleTypesOf groups c := by
  unfold results ruleTypesOf
  by_cases h : metBy groups c = []
  · rw [if_pos h, if_pos ((groups_isEmpty_iff c).mpr h)]
    exact rfl
  · rw [if_neg h, if_neg fun e => h ((groups_isEmpty_iff c).mp e)]
    refine (taggedRules_ends registry runcard c _).map fun rs types => ?_
    have matched : (ConditionMapping.ofCondition groups c).groups =
        (metBy groups c).map fun g => ⟨g.name, g.rules⟩ := matched_eq_map c
    rw [Consolidation.consolidate_ruleTypes, types, matched, List.flatMap_map]

theorem ofCondition_ends (c : Condition) :
    (ofCondition registry runcard (ConditionMapping.ofCondition groups c)).Ends fun e =>
      e.outline = (c.label, keysOf c, ruleTypesOf groups c) := by
  refine (results_ends registry runcard groups c).map fun rs types => ?_
  rw [ConditionResult.outline, types]
  rfl

/-- Whatever the lookups and the checks come to, the conditions, the keys and the rule
types of a runcard's result are those of the groups. -/
theorem ofRuncard_outline (conditions : List Condition) :
    (ofRuncard registry runcard conditions groups).Ends fun result =>
      result.runcard = runcard.id ∧
        result.conditions.map ConditionResult.outline = outline groups conditions := by
  rw [ofRuncard_eq]
  have each := inOrder_ends (l := considered groups conditions) fun c _ =>
    ofCondition_ends registry runcard groups c
  exact each.map fun entries h => ⟨rfl, map_eq_of_forall₂ h⟩

end Outline

/-! ## Two registries -/

section Isolation

variable {first second : Registry} {x : String}

theorem results_alike (agree : ∀ t, t ≠ x → first.get? t = second.get? t) (runcard : Runcard)
    (source : Source) (m : ConditionMapping) :
    List.Forall₂ (Result.Alike x) ((results first runcard m).run source)
      ((results second runcard m).run source) := by
  unfold results
  split
  · exact List.forall₂_same.mpr fun r _ => .refl x r
  · rw [Inquiry.run_map, Inquiry.run_map, run_inOrder, run_inOrder]
    refine Consolidation.consolidate_alike ?_
    rw [List.forall₂_map_left_iff, List.forall₂_map_right_iff, List.forall₂_same]
    intro entry _
    rw [run_dispatchTagged, run_dispatchTagged]
    exact (Registry.dispatch_alike agree source _).note _ _

theorem ofRuncard_alike (agree : ∀ t, t ≠ x → first.get? t = second.get? t)
    (runcard : Runcard) (conditions : List Condition) (groups : List Group)
    (source : Source) :
    List.Forall₂ (ConditionResult.Alike x)
      ((ofRuncard first runcard conditions groups).run source).conditions
      ((ofRuncard second runcard conditions groups).run source).conditions := by
  rw [ofRuncard_eq, ofRuncard_eq, Inquiry.run_map, Inquiry.run_map, run_inOrder,
    run_inOrder, List.forall₂_map_left_iff, List.forall₂_map_right_iff, List.forall₂_same]
  intro c _
  rw [ofCondition, ofCondition, Inquiry.run_map, Inquiry.run_map]
  exact ⟨rfl, rfl, results_alike agree runcard source _⟩

end Isolation

/-! ## The red lamp of a failing rule -/

section Containment

variable {registry : Registry} {runcard : Runcard} {conditions : List Condition}
variable {groups : List Group} {source : Source}

theorem run_ofRuncard_conditions (any : groups ≠ []) :
    ((ofRuncard registry runcard conditions groups).run source).conditions =
      conditions.map fun c =>
        (ofCondition registry runcard (ConditionMapping.ofCondition groups c)).run source := by
  rw [ofRuncard_eq, considered, if_neg any, Inquiry.run_map, run_inOrder]

/-- Among the consolidated results of a condition, that of a failing rule's type is red. -/
theorem result?_of_fails {c : Condition} {g : Group} {rule : Rule} {message : String}
    (member : g ∈ groups) (meets : g.meetsAny (keysOf c) = true) (holds : rule ∈ g.rules)
    (fails : Fails registry source ⟨c, runcard, rule⟩ message) :
    ∃ r, ((ofCondition registry runcard (ConditionMapping.ofCondition groups c)).run
        source).result? rule.ruleType = some r ∧ r.lamp = .fail := by
  have met : g ∈ metBy groups c := List.mem_filter.mpr ⟨member, meets⟩
  have some : metBy groups c ≠ [] := List.ne_nil_of_mem met
  have dispatch := Registry.run_dispatch_of_fails fails
  have among : Result.failed rule.ruleType message ∈
      dispatched registry runcard groups source c :=
    List.mem_flatMap.mpr ⟨g, met, List.mem_map.mpr ⟨rule, holds, dispatch⟩⟩
  have report : Reported registry runcard groups source c _ := reported c
  generalize (ofCondition registry runcard (ConditionMapping.ofCondition groups c)).run
    source = entry at report
  have filed : rule.ruleType ∈ entry.results.map Result.ruleType := by
    rw [report.ruleTypes some, Distinct.mem_firsts]
    exact List.mem_map_of_mem (f := Result.ruleType) among
  obtain ⟨s, hs, type⟩ := List.mem_map.mp filed
  cases found : entry.result? rule.ruleType with
  | none => simpa [type] using List.find?_eq_none.mp found s hs
  | some r =>
      have ofType : r.ruleType = rule.ruleType := by simpa using List.find?_some found
      have greatest := report.lamps some r (List.mem_of_find?_eq_some found)
      exact ⟨r, rfl, Lamp.eq_fail_of_fail_le (greatest.2 ⟨_, among, ofType.symm, rfl⟩)⟩

/-- What a registry promises of the runcard's result, whatever its checks and the
lookups come to. -/
structure ContainsFailures (registry : Registry) (runcard : Runcard) (conditions : List Condition)
    (groups : List Group) (source : Source) : Prop where
  /-- There is a result, with all conditions, keys and rule types. -/
  outline : (ofRuncard registry runcard conditions groups).Ends fun result =>
    result.runcard = runcard.id ∧
      result.conditions.map ConditionResult.outline = outline groups conditions
  /-- A rule that fails is filed under its type as red, with the message and nothing else. -/
  filed : ∀ input message, Fails registry source input message →
    let r := (registry.dispatch input).run source
    r.ruleType = input.rule.ruleType ∧ r.lamp = .fail ∧
      r.detail.toList = [("error", .text message)]
  /-- Where a rule of a matched group fails, the result of its type is red. -/
  red : ∀ (i : Nat) (c : Condition) g rule message, conditions[i]? = some c → g ∈ groups →
    g.meetsAny (keysOf c) = true → rule ∈ g.rules →
    Fails registry source ⟨c, runcard, rule⟩ message →
      ∃ (entry : ConditionResult) (r : Result), ((ofRuncard registry runcard conditions groups).run
          source).conditions[i]? = some entry ∧
        entry.result? rule.ruleType = some r ∧ r.lamp = .fail

theorem containsFailures (registry : Registry) (runcard : Runcard) (conditions : List Condition)
    (groups : List Group) (source : Source) :
    ContainsFailures registry runcard conditions groups source where
  outline := ofRuncard_outline registry runcard groups conditions
  filed := by
    intro input message fails r
    have dispatch : r = _ := Registry.run_dispatch_of_fails fails
    rw [dispatch]
    exact ⟨rfl, rfl, rfl⟩
  red := by
    intro i c g rule message atI member meets holds fails
    obtain ⟨r, found, lamp⟩ := result?_of_fails member meets holds fails
    refine ⟨_, r, ?_, found, lamp⟩
    rw [run_ofRuncard_conditions (List.ne_nil_of_mem member), List.getElem?_map, atI]
    rfl

end Containment

/-- Under two registries that differ in one rule type, a runcard gets a result each time,
and the two results differ in the results of that type at most. -/
theorem ofRuncard_isolates (runcard : Runcard) (conditions : List Condition)
    (groups : List Group) (source : Source) (first second : Registry) (x : String)
    (agree : ∀ t, t ≠ x → first.get? t = second.get? t) :
    ContainsFailures first runcard conditions groups source ∧
      ContainsFailures second runcard conditions groups source ∧
      List.Forall₂ (ConditionResult.Alike x)
        ((ofRuncard first runcard conditions groups).run source).conditions
        ((ofRuncard second runcard conditions groups).run source).conditions :=
  ⟨containsFailures first runcard conditions groups source,
    containsFailures second runcard conditions groups source,
    ofRuncard_alike agree runcard conditions groups source⟩

/-- A check that breaks off and one whose lookup does stand beside a third.  Without the
first of them registered, its rule fails all the same. -/
theorem ofRuncard_isolates_of_panic :
    let broken : Check := ⟨false, fun _ => .done (.panicked (.text "index out of bounds"))⟩
    let second : Registry := Registry.builtin
    let first : Registry := second.insert "Custom" broken
    let source : Source := fun _ => .panicked (.text "lookup table empty")
    let rules : List Rule :=
      ["Custom", "WaferCondition", "RCOwner"].map fun t => ⟨t, ["Prod"], some Entries.empty⟩
    let groups : List Group := [⟨"G1", [Tool.anyChamber "T1"], rules⟩]
    let conditions : List Condition := [⟨"C1", "T1", "R"⟩, ⟨"C2", "T9", "R"⟩]
    let runcard : Runcard := { Runcard.ofId "RC-1" with part := some "TM1" }
    let lampsOf := fun registry : Registry =>
      ((ofRuncard registry runcard conditions groups).run source).conditions.map fun e =>
        e.results.map fun r => (r.ruleType, r.lamp)
    (∀ t, t ≠ "Custom" → first.get? t = second.get? t) ∧
      List.Forall₂ (ConditionResult.Alike "Custom")
        ((ofRuncard first runcard conditions groups).run source).conditions
        ((ofRuncard second runcard conditions groups).run source).conditions ∧
      ((first.dispatch ⟨⟨"C1", "T1", "R"⟩, runcard, ⟨"Custom", ["Prod"], some Entries.empty⟩⟩).run
          source).detail.toList = [("error", .text "check panicked: index out of bounds")] ∧
      lampsOf first = [[("Custom", .fail), ("WaferCondition", .fail), ("RCOwner", .pass)],
        [("no-group", .skip)]] ∧
      lampsOf second = lampsOf first := by
  intro broken second first source rules groups conditions runcard lampsOf
  have agree : ∀ t, t ≠ "Custom" → first.get? t = second.get? t := by
    intro t other
    rw [Entries.get?_insert, if_neg other.symm]
  obtain ⟨contained, -, alike⟩ :=
    ofRuncard_isolates runcard conditions groups source first second "Custom" agree
  have breaks : Fails first source
      ⟨⟨"C1", "T1", "R"⟩, runcard, ⟨"Custom", ["Prod"], some Entries.empty⟩⟩
      "check panicked: index out of bounds" :=
    .brokeOff (c := broken) (p := .text "index out of bounds") (by rfl) (by rfl) (by rfl)
  exact ⟨agree, alike, (contained.filed _ _ breaks).2.2, by decide +kernel, by decide +kernel⟩

end Evaluation
end RuncardReview
