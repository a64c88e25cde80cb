import RuncardReview.Proofs.JsonForms

/-!
# Groups and results read back from JSON

A record is read back when each of its fields is.  Doubles stand in the settings of rules and in the
details of results only, and everything else is read back without a condition.

**Results.**
* `Group.readsBack`, `RuncardResult.readsBack`: the law for the two kinds of records that are
  exchanged, put together from those of their parts.
* `readsBack_iff_finite`: when a record is read back as it was.
-/

namespace RuncardReview

open Json Number

theorem Tool.readsBack : ReadsBack (fun _ => []) toJson ofJson? := by
  intro t
  have fields : fields? ["toolId", "chamberId"] t.toJson =
      some [some (.text t.id), some (.text t.chamber)] := fields?_zip _ [_, _] (by decide) rfl
  rw [ofJson?, fields]
  rfl

theorem Lamp.readsBack : ReadsBack (fun _ => []) toJson ofJson? := by
  intro l
  cases l <;> rfl

namespace Rule

/-- The doubles in the settings of a rule. -/
def floats (r : Rule) : List Float :=
  r.settings.elim [] Entries.floats

theorem readsBack : ReadsBack floats toJson ofJson? := by
  intro r
  have fields : fields? ["ruleType", "lotType", "settings"] r.toJson =
      some [some (.text r.ruleType), some (.array (r.lotTypes.map .text)),
        some (ofOption Entries.toJson r.settings)] := fields?_zip _ [_, _, _] (by decide) rfl
  have lots := ReadsBack.text.plainList r.lotTypes
  have settings : nullable Entries.ofJson? (ofOption Entries.toJson r.settings) =
      if r.floats.all isFinite then some r.settings else none :=
    Entries.readsBack.option Entries.toJson_ne_null r.settings
  rw [ofJson?, fields]
  simp only [required, Option.bind_some, text?, defaulted, lots, settings]
  cases r.floats.all isFinite <;> rfl

end Rule

namespace Group

def floats (g : Group) : List Float :=
  g.rules.flatMap Rule.floats

theorem readsBack : ReadsBack floats toJson ofJson? := by
  intro g
  have fields : fields? ["groupName", "tools", "rules"] g.toJson =
      some [some (.text g.name), some (.array (g.tools.map Tool.toJson)),
        some (.array (g.rules.map Rule.toJson))] := fields?_zip _ [_, _, _] (by decide) rfl
  have tools := Tool.readsBack.plainList g.tools
  have rules : list? Rule.ofJson? (.array (g.rules.map Rule.toJson)) =
      if g.floats.all isFinite then some g.rules else none := Rule.readsBack.list g.rules
  rw [ofJson?, fields]
  simp only [required, Option.bind_some, text?, tools, rules]
  cases g.floats.all isFinite <;> rfl

end Group

namespace Result

def floats (r : Result) : List Float :=
  r.detail.floats

theorem readsBack : ReadsBack floats toJson ofJson? := by
  intro r
  have fields : fields? ["ruleType", "result", "detail"] r.toJson =
      some [some (.text r.ruleType), some r.lamp.toJson, some (Entries.toJson r.detail)] :=
    fields?_zip _ [_, _, _] (by decide) rfl
  have lamp : Lamp.ofJson? r.lamp.toJson = some r.lamp := Lamp.readsBack r.lamp
  have detail : Entries.ofJson? (Entries.toJson r.detail) =
      if r.floats.all isFinite then some r.detail else none := Entries.readsBack r.detail
  rw [ofJson?, fields]
  simp only [required, Option.bind_some, text?, defaulted, lamp, detail]
  cases r.floats.all isFinite <;> rfl

end Result

namespace ConditionResult

def floats (c : ConditionResult) : List Float :=
  c.results.flatMap Result.floats

theorem readsBack : ReadsBack floats toJson ofJson? := by
  intro c
  have fields : fields? ["condition", "toolChambers", "results"] c.toJson =
      some [some (.text c.condition), some (.array (c.toolChambers.map .text)),
        some (.array (c.results.map Result.toJson))] := fields?_zip _ [_, _, _] (by decide) rfl
  have keys := ReadsBack.text.plainList c.toolChambers
  have results : list? Result.ofJson? (.array (c.results.map Result.toJson)) =
      if c.floats.all isFinite then some c.results else none := Result.readsBack.list c.results
  rw [ofJson?, fields]
  simp only [required, Option.bind_some, text?, keys, results]
  cases c.floats.all isFinite <;> rfl

end ConditionResult

namespace RuncardResult

/-- The doubles in the details of all results. -/
def floats (r : RuncardResult) : List Float :=
  r.conditions.flatMap ConditionResult.floats

theorem readsBack : ReadsBack floats toJson ofJson? := by
  intro r
  have fields : fields? ["runcardId", "conditions"] r.toJson =
      some [some (.text r.runcard), some (.array (r.conditions.map ConditionResult.toJson))] :=
    fields?_zip _ [_, _] (by decide) rfl
  have conditions : list? ConditionResult.ofJson?
      (.array (r.conditions.map ConditionResult.toJson)) =
      if r.floats.all isFinite then some r.conditions else none :=
    ConditionResult.readsBack.list r.conditions
  rw [ofJson?, fields]
  simp only [required, Option.bind_some, text?, conditions]
  cases r.floats.all isFinite <;> rfl

end RuncardResult

/-- Groups and the results of runcards, written in JSON and read from it again, are the same as
before exactly if all doubles in them are finite. -/
theorem readsBack_iff_finite (g : Group) (r : RuncardResult) :
    (Group.ofJson? g.toJson = some g ↔ ∀ x ∈ g.floats, isFinite x = true) ∧
      (RuncardResult.ofJson? r.toJson = some r ↔ ∀ x ∈ r.floats, isFinite x = true) :=
  ⟨Group.readsBack.eq_some_iff g, RuncardResult.readsBack.eq_some_iff r⟩

end RuncardReview
