import Mathlib.Data.List.Forall2
import Mathlib.Data.List.Nodup
import RuncardReview.Proofs.LampAgreement

/-!
# The order of the records does not decide a lamp

A source may give the records of a lookup in any order.  The inhibition and release records are
asked whether there is one of a kind, or only such, and the steps of a route are put in ascending
order first, which settles their places as long as no two steps have one number.  Such an order
shows in the evidence alone.

**Results.**
* `ForwardProcess.byStep_eq_of_perm`: a route with distinct steps has one ascending order.
* `Source.Reordered.sameGrounds`: all conditions stand on the same grounds.
* `ofRuncard_reordered`: the results of a runcard.
-/

namespace RuncardReview

/-- The same records in any order.  In a route no two of them have one step. -/
def Query.Reordered : (q : Query) → q.Answer → q.Answer → Prop
  | .forward .., a, b => List.Perm a b ∧ (List.map ProcessRecord.step a).Nodup
  | .inhibition .., a, b => List.Perm a b
  | .wafer .., a, b => a = b
  | .release .., a, b => List.Perm a b
  | .engineerSection .., a, b => a = b

/-- Two sources that fail on the same lookups, and answer the others by the same records. -/
def Source.Reordered (first second : Source) : Prop :=
  ∀ q, Outcome.Agree q.Reordered (first q) (second q)

/-- Records that are apart by their steps have only one ascending order. -/
theorem ForwardProcess.byStep_eq_of_perm {a b : List ProcessRecord} (perm : a.Perm b)
    (distinct : (a.map ProcessRecord.step).Nodup) :
    byStep a = byStep b := by
  have sorted : ∀ l, (byStep l).Perm l := fun l => List.mergeSort_perm l _
  refine List.Perm.eq_of_pairwise (fun r s hr hs hrs hsr => ?_) (pairwise_byStep a)
    (pairwise_byStep b) ((sorted a).trans (perm.trans (sorted b).symm))
  have hr : r ∈ a := (sorted a).mem_iff.mp hr
  have hs : s ∈ a := perm.mem_iff.mpr ((sorted b).mem_iff.mp hs)
  exact List.inj_on_of_nodup_map distinct hr hs (UInt32.le_antisymm hrs hsr)

theorem Source.Reordered.sameGrounds {first second : Source} (reordered : first.Reordered second)
    (runcard : Runcard) (c : Condition) :
    SameGrounds first second runcard c c where
  toSameTools := ⟨rfl, rfl, fun _ => Iff.rfl⟩
  route := (reordered (.forward runcard.id c.label)).imp fun _ _ h =>
    ForwardProcess.byStep_eq_of_perm h.1 h.2
  inhibitions := reordered (.inhibition c.toolIds c.recipe)
  counts := reordered (.wafer runcard.id)
  releases := reordered (.release c.recipe c.toolIds)
  sections engineer := reordered (.engineerSection engineer)

namespace Evaluation

/-- Before two sources that give the same records, each in an order of its own, a runcard gets
the same conditions and keys, and the same rule types in the same order with the same lamps. -/
theorem ofRuncard_reordered (runcard : Runcard) (conditions : List Condition)
    (groups : List Group) (first second : Source) (reordered : first.Reordered second) :
    let result := (ofRuncard Registry.builtin runcard conditions groups).run first
    let other := (ofRuncard Registry.builtin runcard conditions groups).run second
    result.runcard = other.runcard ∧
      result.conditions.map ConditionResult.outline =
        other.conditions.map ConditionResult.outline ∧
      result.conditions.map ConditionResult.headlines =
        other.conditions.map ConditionResult.headlines := by
  intro result other
  have outlined := ofRuncard_outline Registry.builtin runcard groups conditions
  obtain ⟨runcards, outlines⟩ := outlined.run first
  obtain ⟨runcards', outlines'⟩ := outlined.run second
  have same : List.Forall₂ (SameGrounds first second runcard) conditions conditions :=
    List.forall₂_same.mpr fun c _ => reordered.sameGrounds runcard c
  have labelled := congrArg (List.map Prod.snd) (run_ofRuncard_headlines groups same)
  rw [List.map_map, List.map_map] at labelled
  exact ⟨runcards.trans runcards'.symm, outlines.trans outlines'.symm, labelled⟩

/-! ## Records turned round -/

namespace Turned

def route : List ProcessRecord :=
  [⟨30, "OTHER-9", "ZZ01", "Process"⟩, ⟨10, "ETCH-MAIN", "ET01", "Process"⟩]

def inhibitions : List InhibitionRecord :=
  [⟨"T1", "A", "Y"⟩, ⟨"T2", "B", "N"⟩]

def releases : List ReleaseRecord :=
  [⟨"T1", "A", true, true⟩, ⟨"T2", "B", true, false⟩]

def first : Source
  | .forward .. => .ok route
  | .inhibition .. => .ok inhibitions
  | .wafer .. => .error ⟨"wafer", "down"⟩
  | .release .. => .ok releases
  | .engineerSection .. => .ok (some "ETCH")

def second : Source
  | .forward .. => .ok route.reverse
  | .inhibition .. => .ok inhibitions.reverse
  | .wafer .. => .panicked .other
  | .release .. => .ok releases.reverse
  | .engineerSection .. => .ok (some "ETCH")

def settings : Settings :=
  Entries.ofList
    [("forwardSteps", .int 1), ("recipeIds", .text "%ETCH"), ("sections", .text "ETCH")]

def groups : List Group :=
  [⟨"G1", [⟨"T1", ""⟩],
    RuleKind.all.reverse.map fun kind => ⟨kind.name, ["Prod"], some settings⟩⟩]

def runcard : Runcard :=
  { Runcard.ofId "RC-1" with part := some "TM1", engineer := some "FAB12/JDOE" }

def conditions : List Condition :=
  [⟨"C1", "T1", "R"⟩, ⟨"C2", "T1,T2", "R"⟩]

def entries (source : Source) : List ConditionResult :=
  ((ofRuncard Registry.builtin runcard conditions groups).run source).conditions

def lampsOf (t : String) : List (Option Lamp) :=
  (entries second).map fun e => (e.result? t).map Result.lamp

end Turned

open Turned

/-- Each list of records is turned round, and the counts cannot be looked up, either time for a
reason of its own. -/
theorem ofRuncard_reordered_of_turned :
    first.Reordered second ∧
      (entries first).map ConditionResult.headlines =
        (entries second).map ConditionResult.headlines ∧
      (ForwardProcess.window settings route.reverse).map ProcessRecord.step = [10] ∧
      lampsOf "InhibitionCheckStatus" = [some .caution, some .caution] ∧
      lampsOf "WaferCondition" = [some .fail, some .fail] ∧
      lampsOf "RecipeGroupCheckBlue" = [some .pass, some .fail] := by
  have reordered : first.Reordered second := by
    intro q
    cases q with
    | forward => exact .some ⟨(List.reverse_perm route).symm, by decide⟩
    | inhibition => exact .some (List.reverse_perm inhibitions).symm
    | wafer => exact .none
    | release => exact .some (List.reverse_perm releases).symm
    | engineerSection => exact .some rfl
  have same := ofRuncard_reordered runcard conditions groups first second reordered
  have earliest : (ForwardProcess.window settings route.reverse).map ProcessRecord.step = [10] := by
    rw [ForwardProcess.window, List.mergeSort_of_pairwise (by decide +kernel)]
    decide +kernel
  exact ⟨reordered, same.2.2, earliest, by decide +kernel, by decide +kernel, by decide +kernel⟩

end Evaluation
end RuncardReview
