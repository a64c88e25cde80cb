import RuncardReview.Chamber.Expansion
import RuncardReview.Check.Registry
import RuncardReview.Consolidation
import RuncardReview.Matching

/-!
# Evaluation of a runcard

The tools of each condition are expanded by its recipe and matched against the
groups; every rule of every matched group is dispatched, and the results are
consolidated.  A condition that no group matches gets a single result which says
so.
-/

namespace RuncardReview

/-- A condition with its keys and the groups they matched, in catalog order. -/
structure ConditionMapping where
  condition : Condition
  toolIds : List String
  toolChambers : List String
  groups : List GroupRules

namespace ConditionMapping

/-- Expands a condition and matches it against the groups. -/
def ofCondition (groups : List Group) (c : Condition) : ConditionMapping :=
  let keys := (Expansion.ofRecipe c.recipe).flatten c.toolIds
  ⟨c, c.toolIds, keys, Group.matched groups keys⟩

end ConditionMapping

/-- A runcard, if there is one, and its mapped conditions. -/
structure Mapping where
  runcard : Option Runcard
  conditions : List ConditionMapping

namespace Mapping

/-- Maps the conditions of a runcard.  Without a runcard there is nothing to
map, and without groups or conditions only the runcard is kept. -/
def build (runcard : Option Runcard) (conditions : List Condition) (groups : List Group) :
    Mapping :=
  match runcard with
  | none => ⟨none, []⟩
  | some r =>
      if groups.isEmpty || conditions.isEmpty then ⟨some r, []⟩
      else ⟨some r, conditions.map (ConditionMapping.ofCondition groups)⟩

end Mapping

namespace Evaluation

/-- The rule type of the result for a condition that no group matches. -/
def noGroup : String := "no-group"

/-- Evaluates the members of a list one after the other. -/
def inOrder {α β : Type} (f : α → Inquiry β) : List α → Inquiry (List β)
  | [] => .done []
  | a :: as => (f a).bind fun b => (inOrder f as).map fun bs => b :: bs

/-- The rules of the matched groups, each with its group, in order. -/
def taggedRules (groups : List GroupRules) : List (String × Rule) :=
  groups.flatMap fun g => g.rules.map fun r => (g.group, r)

/-- The result of one rule, tagged with its group. -/
def dispatchTagged (registry : Registry) (runcard : Runcard) (condition : Condition)
    (entry : String × Rule) : Inquiry Result :=
  (registry.dispatch ⟨condition, runcard, entry.2⟩).map fun r =>
    r.note Consolidation.groupKey (.text entry.1)

/-- The consolidated results of a condition. -/
def results (registry : Registry) (runcard : Runcard) (c : ConditionMapping) :
    Inquiry (List Result) :=
  if c.groups.isEmpty then
    .done [(Result.ofLamp noGroup .skip).note "recipeId" (.text c.condition.recipe)]
  else
    (inOrder (dispatchTagged registry runcard c.condition) (taggedRules c.groups)).map
      Consolidation.consolidate

def ofCondition (registry : Registry) (runcard : Runcard) (c : ConditionMapping) :
    Inquiry ConditionResult :=
  (results registry runcard c).map fun rs => ⟨c.condition.label, c.toolChambers, rs⟩

/-- The results of a mapping.  Without a runcard they are empty. -/
def ofMapping (registry : Registry) (m : Mapping) : Inquiry RuncardResult :=
  match m.runcard with
  | none => .done ⟨"", []⟩
  | some runcard =>
      (inOrder (ofCondition registry runcard) m.conditions).map fun cs => ⟨runcard.id, cs⟩

/-- The results of a runcard under its conditions. -/
def ofRuncard (registry : Registry) (runcard : Runcard) (conditions : List Condition)
    (groups : List Group) : Inquiry RuncardResult :=
  ofMapping registry (Mapping.build (some runcard) conditions groups)

end Evaluation
end RuncardReview
