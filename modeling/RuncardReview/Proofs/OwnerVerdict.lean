import Mathlib.Logic.Relation
import RuncardReview.Proofs.CheckResults
import RuncardReview.Proofs.RuleGates
import RuncardReview.Proofs.TrimmedItems

/-!
# Who issued a runcard

The engineer of a runcard is given by a path, and counts under its last segment that is not blank.
More segments in front of a path, and slashes and blanks behind it, are therefore of no account.  A
runcard is flagged if this name is one of the owners, or if the section that it is found in is one
of the sections of the rule.  The section is looked up only if the rule has some.

**Results.**
* `shortName_iff`: the name of an engineer.
* `Pads.lastSegment`: a path with more around it.
* `judges_evaluate`: the result for an engineer with a name.
* `evaluate_owner`: every rule that passes the gates, and every other spelling of the path.
-/

namespace RuncardReview

open Text

namespace Runcard

/-! ## Names of engineers -/

/-- The name of an engineer: the last segment of the path that is not blank, without the blanks
around it.  There is none without a path, or if all segments are blank. -/
inductive ShortName : Option String → Option String → Prop
  | absent : ShortName none none
  | blank {path : String} :
      (∀ segment ∈ path.toList.splitOn '/', ∀ c ∈ segment, isBlank c = true) →
      ShortName (some path) none
  | last {path : String} {segment : List Char} {front back : List (List Char)} :
      path.toList.splitOn '/' = front ++ segment :: back →
      (∃ c ∈ segment, isBlank c = false) → (∀ s ∈ back, ∀ c ∈ s, isBlank c = true) →
      ShortName (some path) (some (trim (String.ofList segment)))

/-- One more segment in front of a path, or a slash or blanks behind it. -/
inductive Pads : String → String → Prop
  | segment {path : String} (x : String) : Pads path (x ++ "/" ++ path)
  | slash {path : String} : Pads path (path ++ "/")
  | blanks {path b : String} : (∀ c ∈ b.toList, isBlank c = true) → Pads path (path ++ b)

section Names

variable {path padded name : String} {engineer n : Option String} {r : Runcard}

theorem lastSegment_eq (path : String) :
    lastSegment path = ((path.toList.splitOn '/').filterMap item?).getLast? := by
  rw [lastSegment, items_eq_filterMap]

theorem lastSegment_eq_none_iff :
    lastSegment path = none ↔
      ∀ segment ∈ path.toList.splitOn '/', ∀ c ∈ segment, isBlank c = true := by
  rw [lastSegment_eq, List.getLast?_eq_none_iff, List.filterMap_eq_nil_iff]
  simp only [item?_eq_none_iff]

theorem lastSegment_eq_some_iff :
    lastSegment path = some name ↔
      ∃ front segment back, path.toList.splitOn '/' = front ++ segment :: back ∧
        item? segment = some name ∧ ∀ s ∈ back, item? s = none := by
  rw [lastSegment_eq, List.getLast?_filterMap, List.findSome?_eq_some_iff]
  constructor
  · rintro ⟨back, segment, front, split, found, blank⟩
    refine ⟨front.reverse, segment, back.reverse, ?_, found, by simpa using blank⟩
    rw [← List.reverse_inj, split]
    simp
  · rintro ⟨front, segment, back, split, found, blank⟩
    exact ⟨back.reverse, segment, front.reverse, by simp [split], found, by simpa using blank⟩

theorem shortName_lastSegment (path : String) :
    ShortName (some path) (lastSegment path) := by
  cases found : lastSegment path with
  | none => exact .blank (lastSegment_eq_none_iff.mp found)
  | some name =>
      obtain ⟨front, segment, back, split, found, blank⟩ := lastSegment_eq_some_iff.mp found
      obtain ⟨some, rfl⟩ := item?_eq_some_iff.mp found
      have form : String.ofList (trimChars segment) = trim (String.ofList segment) := by
        rw [trim, String.toList_ofList]
      rw [form]
      exact .last split some fun s hs => item?_eq_none_iff.mp (blank s hs)

/-- Every engineer has one name at most, and it is the one that is read from the path. -/
theorem shortName_iff :
    ShortName r.engineer n ↔ r.engineerName = n := by
  rw [engineerName]
  constructor
  · intro named
    generalize r.engineer = engineer at named
    cases named with
    | absent => rfl
    | blank all => exact lastSegment_eq_none_iff.mpr all
    | @last path segment front back split some blank =>
        refine lastSegment_eq_some_iff.mpr ⟨front, segment, back, split, ?_, fun s hs =>
          item?_eq_none_iff.mpr (blank s hs)⟩
        exact item?_eq_some_iff.mpr ⟨some, by rw [trim, String.toList_ofList]⟩
  · rintro rfl
    cases r.engineer with
    | none => exact .absent
    | some path => exact shortName_lastSegment path

/-- What is put around a path leaves its items at the end of the list. -/
theorem Pads.lastSegment (pads : Pads path padded) (named : lastSegment path = some name) :
    lastSegment padded = some name := by
  have nothing : items '/' [] = [] := rfl
  cases pads with
  | segment x =>
      have split : (x ++ "/" ++ path).toList = x.toList ++ '/' :: path.toList := by simp
      rw [Runcard.lastSegment] at named ⊢
      rw [split, items_append_cons, List.getLast?_append, named]
      rfl
  | slash =>
      have split : (path ++ "/").toList = path.toList ++ '/' :: [] := by simp
      rw [Runcard.lastSegment, split, items_append_cons, nothing, List.append_nil]
      exact named
  | @blanks b blank =>
      have split : (path ++ b).toList = path.toList ++ b.toList := by simp
      rw [Runcard.lastSegment, split, items_append_blanks (by decide) blank]
      exact named

theorem lastSegment_of_pads (pads : Relation.ReflTransGen Pads path padded)
    (named : lastSegment path = some name) :
    lastSegment padded = some name := by
  induction pads with
  | refl => exact named
  | tail _ last ih => exact last.lastSegment ih

end Names

end Runcard

namespace RuncardOwner

open Runcard (ShortName Pads lastSegment)

/-! ## The verdict -/

/-- The section in which an engineer is found, if any.  Without sections to compare it with, nothing
is looked up. -/
inductive Finds (s : Settings) (source : Source) (name : String) : Option String → Prop
  | unasked : s.texts "sections" = [] → Finds s source name none
  | asked {found : Option String} : s.texts "sections" ≠ [] →
      source (.engineerSection name) = .ok found → Finds s source name found

/-- The name is one of the owners, or the section one of the sections. -/
def Listed (s : Settings) (name : String) (found : Option String) : Prop :=
  name ∈ s.texts "owners" ∨ ∃ place ∈ s.texts "sections", found = some place

instance (s : Settings) (name : String) (found : Option String) : Decidable (Listed s name found) :=
  inferInstanceAs (Decidable (_ ∨ _))

/-- What is asked and said about an engineer with a name. -/
structure Judges (s : Settings) (source : Source) (name : String) (evaluation : Inquiry Result) :
    Prop where
  asks : evaluation.queries source =
    if s.texts "sections" = [] then [] else [.engineerSection name]
  failed : ∀ e, s.texts "sections" ≠ [] → source (.engineerSection name) = .error e →
    (evaluation.run source).lamp = .fail ∧
      (evaluation.run source).detail.get? "error" = some (.text e.message)
  broken : ∀ p, s.texts "sections" ≠ [] → source (.engineerSection name) = .panicked p →
    (evaluation.run source).lamp = .fail ∧
      (evaluation.run source).detail.get? "error" = some (.text ("check panicked: " ++ p.message))
  flagged : ∀ found, Finds s source name found →
    ((evaluation.run source).lamp = .caution ↔ Listed s name found)
  clear : ∀ found, Finds s source name found →
    ((evaluation.run source).lamp = .pass ↔ ¬Listed s name found)

section Verdict

variable {s : Settings} {name : String} {found : Option String} {input : CheckInput}
variable {source : Source}

theorem verdict_lamp (s : Settings) (name : String) (found : Option String) :
    (verdict s name found).lamp = if Listed s name found then .caution else .pass := by
  cases found with
  | none => simp [verdict, Listed]
  | some place => simp [verdict, Listed]

/-- An engineer without a name is let through, and nothing is asked. -/
theorem run_of_nameless (nameless : input.runcard.engineerName = none) :
    check.run input =
      .done (.ok ((Verdict.ofLamp .pass).note "msg" (.text "No issuing engineer"))) := by
  simp only [check, nameless]

theorem run_of_name (configured : input.rule.settings = some s)
    (named : input.runcard.engineerName = some name) :
    check.run input =
      if s.texts "sections" = [] then .done (.ok (verdict s name none))
      else Check.lookUp (.engineerSection name) fun found => .ok (verdict s name found) := by
  simp only [check, named, configured, Option.getD_some, List.isEmpty_iff]

/-- The verdict is made from the section that is found. -/
theorem run_evaluate_of_finds (passes : Check.skipReason? check.needsSettings input = none)
    (configured : input.rule.settings = some s)
    (named : input.runcard.engineerName = some name) (finds : Finds s source name found) :
    (check.evaluate input).run source =
      Result.ofVerdict input.rule.ruleType (verdict s name found) := by
  have run := run_of_name configured named
  cases finds with
  | unasked none =>
      rw [if_pos none] at run
      rw [Check.run_evaluate passes, run]
      rfl
  | asked some answer =>
      rw [if_neg some] at run
      exact Check.run_evaluate_lookUp passes answer run

theorem judges_evaluate (passes : Check.skipReason? check.needsSettings input = none)
    (configured : input.rule.settings = some s)
    (named : input.runcard.engineerName = some name) :
    Judges s source name (check.evaluate input) := by
  have run := run_of_name configured named
  have lamp : ∀ found, Finds s source name found →
      ((check.evaluate input).run source).lamp =
        if Listed s name found then .caution else .pass := by
    intro found finds
    rw [run_evaluate_of_finds passes configured named finds, Result.ofVerdict, verdict_lamp]
  refine ⟨?asks, ?failed, ?broken, ?flagged, ?clear⟩
  case asks =>
    rw [Check.evaluate, passes, Inquiry.queries_map, run]
    split
    · rfl
    · exact Check.queries_lookUp _ _ _
  case failed =>
    intro e some failed
    rw [if_neg some] at run
    rw [Check.run_evaluate passes, run, Check.lookUp, Inquiry.run, failed]
    exact ⟨rfl, rfl⟩
  case broken =>
    intro p some broken
    rw [if_neg some] at run
    rw [Check.run_evaluate passes, run, Check.lookUp, Inquiry.run, broken]
    exact ⟨rfl, rfl⟩
  case flagged =>
    intro found finds
    rw [lamp found finds]
    split <;> simp [*]
  case clear =>
    intro found finds
    rw [lamp found finds]
    split <;> simp [*]

/-- The check sees nothing of the engineer but the name. -/
theorem evaluate_of_name {runcard runcard' : Runcard} (condition : Condition) (rule : Rule)
    (part : runcard'.part = runcard.part) (name : runcard'.engineerName = runcard.engineerName) :
    check.evaluate ⟨condition, runcard', rule⟩ = check.evaluate ⟨condition, runcard, rule⟩ := by
  have gates : Check.skipReason? check.needsSettings ⟨condition, runcard', rule⟩ =
      Check.skipReason? check.needsSettings ⟨condition, runcard, rule⟩ := by
    simp only [Check.skipReason?, part]
  have run : check.run ⟨condition, runcard', rule⟩ = check.run ⟨condition, runcard, rule⟩ := by
    simp only [check, name]
  simp only [Check.evaluate, gates, run]

end Verdict

/-- A rule on the owners that passes the gates lets a runcard through, without asking anything, if
its engineer has no name.  Otherwise the name and the section that it is found in decide, and
nothing that is put around the engineer's path makes a difference. -/
theorem evaluate_owner (input : CheckInput) (source : Source)
    (passes : Check.skipReason? check.needsSettings input = none) :
    ∃ s n, input.rule.settings = some s ∧
      ShortName input.runcard.engineer n ∧ (∀ m, ShortName input.runcard.engineer m → m = n) ∧
      (n = none → ((check.evaluate input).run source).lamp = .pass ∧
        (check.evaluate input).queries source = []) ∧
      ∀ name, n = some name → Judges s source name (check.evaluate input) ∧
        ∀ path padded, input.runcard.engineer = some path → Relation.ReflTransGen Pads path padded →
          check.evaluate { input with runcard.engineer := some padded } = check.evaluate input := by
  obtain ⟨s, configured⟩ := Check.exists_settings passes
  refine ⟨s, input.runcard.engineerName, configured, Runcard.shortName_iff.mpr rfl,
    fun m named => (Runcard.shortName_iff.mp named).symm, fun nameless => ?nameless,
    fun name named => ⟨judges_evaluate passes configured named,
      fun path padded given pads => ?pads⟩⟩
  case nameless =>
    have run := run_of_nameless nameless
    rw [Check.run_evaluate passes, run]
    refine ⟨rfl, ?_⟩
    rw [Check.evaluate, passes, Inquiry.queries_map, run]
    rfl
  case pads =>
    refine evaluate_of_name _ _ rfl ?_
    rw [Runcard.engineerName, given] at named
    rw [Runcard.engineerName, Runcard.engineerName, given]
    exact (Runcard.lastSegment_of_pads pads named).trans named.symm

/-- The path goes on behind the name, the one section in which the engineer is found is listed, and
the lookup may fail instead. -/
theorem evaluate_owner_of_padded :
    let settings : Settings := (Entries.empty.insert "owners" (.text "ASMITH")).insert
      "sections" (.text "ETCH1, ETCH2")
    let runcard : Runcard :=
      { Runcard.ofId "RC-1" with part := some "TM1", engineer := some "FAB12/ JDOE " }
    let input : CheckInput := ⟨⟨"C1", "T1", "R"⟩, runcard, ⟨"RCOwner", ["Prod"], some settings⟩⟩
    let source : Source := fun
      | .engineerSection _ => .ok (some "ETCH2" : Option String)
      | q => .ok q.noAnswer
    let down : Source := fun _ => .error ⟨"section", "down"⟩
    let padded : CheckInput := { input with runcard.engineer := some "X/FAB12/ JDOE / /" }
    Check.skipReason? check.needsSettings input = none ∧
      ShortName input.runcard.engineer (some "JDOE") ∧
      (check.evaluate input).queries source = [.engineerSection "JDOE"] ∧
      ((check.evaluate input).run source).lamp = .caution ∧
      ((check.evaluate input).run down).lamp = .fail ∧
      check.evaluate padded = check.evaluate input := by
  intro settings runcard input source down padded
  have passes : Check.skipReason? check.needsSettings input = none := by decide +kernel
  have named : ShortName input.runcard.engineer (some "JDOE") :=
    Runcard.shortName_iff.mpr (by decide +kernel)
  have sections : settings.texts "sections" = ["ETCH1", "ETCH2"] := by decide +kernel
  have asks : settings.texts "sections" ≠ [] := by simp [sections]
  have pads : Relation.ReflTransGen Pads "FAB12/ JDOE " "X/FAB12/ JDOE / /" := by
    have front : Pads "FAB12/ JDOE " "X/FAB12/ JDOE " := .segment "X"
    have first : Pads "X/FAB12/ JDOE " "X/FAB12/ JDOE /" := .slash
    have blank : Pads "X/FAB12/ JDOE /" "X/FAB12/ JDOE / " :=
      @Pads.blanks _ " " (List.forall_mem_singleton.mpr rfl)
    have second : Pads "X/FAB12/ JDOE / " "X/FAB12/ JDOE / /" := .slash
    exact (((Relation.ReflTransGen.single front).tail first).tail blank).tail second
  obtain ⟨s, n, configured, -, unique, -, judged⟩ := evaluate_owner input source passes
  obtain ⟨s', n', configured', -, unique', -, judged'⟩ := evaluate_owner input down passes
  obtain rfl : settings = s := Option.some.inj configured
  obtain rfl : settings = s' := Option.some.inj configured'
  obtain ⟨judges, same⟩ := judged "JDOE" (unique _ named).symm
  obtain ⟨judges', -⟩ := judged' "JDOE" (unique' _ named).symm
  have finds : Finds settings source "JDOE" (some "ETCH2") := .asked asks rfl
  refine ⟨passes, named, ?_, ?_, (judges'.failed _ asks rfl).1, same _ _ rfl pads⟩
  · rw [judges.asks, if_neg asks]
  · exact (judges.flagged _ finds).mpr (Or.inr ⟨"ETCH2", by simp [sections], rfl⟩)

end RuncardOwner
end RuncardReview
