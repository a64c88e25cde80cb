import Mathlib.Data.List.Infix
import RuncardReview.Check.Registry

/-!
# What the gates keep from a check

A rule that a gate stops is skipped before its check is looked at: nothing is asked, and the
result names the gate.  So the result is that of every other check that needs settings just
as this one does, and of every source.  Behind the gates the check is run, and what it
comes to is returned as it is.

An inquiry that is served from a state shows how often a check is run: each query of the check
reaches the server once, in the order in which the check puts it.

**Results.**
* `covers_iff`: which parts the lot types cover.
* `gates_cases`, `skipReason?_eq_none_iff`: the first gate that stops a rule, if one does.
* `silent_of_stopped`, `runsOnce_of_passes`: a rule that is stopped, and one that is not.
* `dispatch_gates`: both for every rule of a registered type.
-/

namespace RuncardReview

namespace Inquiry

variable {α β : Type}

theorem queries_map (source : Source) (f : α → β) (x : Inquiry α) :
    (x.map f).queries source = x.queries source := by
  induction x with
  | done a => rfl
  | ask q next ih => exact congrArg (q :: ·) (ih (source q))

/-- Serving the queries of an inquiry does not depend on what is done with its value. -/
theorem runServed_map {σ : Type} (serve : (q : Query) → σ → q.Reply × σ) (f : α → β)
    (x : Inquiry α) (s : σ) :
    (x.map f).runServed serve s = ((x.runServed serve s).map f id) := by
  induction x generalizing s with
  | done a => rfl
  | ask q next ih => exact ih (serve q s).1 (serve q s).2

end Inquiry

/-- The lot types cover a part: `Prod` those whose id starts with `TM`, `C/W` those whose id
does not. -/
inductive Covers (lots : List String) : Option String → Prop
  | production {part : String} (lot : "Prod" ∈ lots) (start : "TM".toList <+: part.toList) :
      Covers lots (some part)
  | other {part : String} (lot : "C/W" ∈ lots) (start : ¬"TM".toList <+: part.toList) :
      Covers lots (some part)

theorem Rule.covers_iff {rule : Rule} {part : Option String} :
    rule.covers part = true ↔ Covers rule.lotTypes part := by
  cases part with
  | none =>
      have uncovered : ¬Covers rule.lotTypes none := nofun
      simp [Rule.covers, uncovered]
  | some part =>
      have starts : Rule.isProduction part = true ↔ "TM".toList <+: part.toList :=
        List.isPrefixOf_iff_prefix
      simp only [Rule.covers, Bool.or_eq_true, Bool.and_eq_true, decide_eq_true_eq,
        Bool.not_eq_true', ← Bool.not_eq_true, starts]
      constructor
      · rintro (⟨lot, start⟩ | ⟨lot, start⟩)
        · exact .production lot start
        · exact .other lot start
      · rintro (⟨lot, start⟩ | ⟨lot, start⟩)
        · exact Or.inl ⟨lot, start⟩
        · exact Or.inr ⟨lot, start⟩

/-! ## The gates -/

/-- Some gate stops the rule. -/
def Barred (needsSettings : Bool) (input : CheckInput) : Prop :=
  input.rule.lotTypes = [] ∨ ¬Covers input.rule.lotTypes input.runcard.part ∨
    needsSettings = true ∧ input.rule.settings = none

/-- The first gate that stops the rule says so. -/
inductive Bars (needsSettings : Bool) (input : CheckInput) : String → Prop
  | noLots (lots : input.rule.lotTypes = []) :
      Bars needsSettings input "lotType is empty => skip check"
  | otherLots (lots : input.rule.lotTypes ≠ [])
      (part : ¬Covers input.rule.lotTypes input.runcard.part) :
      Bars needsSettings input "lotType mismatch => skip check"
  | noSettings (lots : input.rule.lotTypes ≠ [])
      (part : Covers input.rule.lotTypes input.runcard.part) (needed : needsSettings = true)
      (missing : input.rule.settings = none) :
      Bars needsSettings input "No settings => skip check"

namespace Check

variable {needsSettings : Bool} {input : CheckInput} {reason : String}

/-- Every rule either passes the gates or is stopped by the first that does not let it
through. -/
theorem gates_cases (needsSettings : Bool) (input : CheckInput) :
    (¬Barred needsSettings input ∧ skipReason? needsSettings input = none) ∨
      ∃ reason, Bars needsSettings input reason ∧
        skipReason? needsSettings input = some reason := by
  unfold skipReason?
  by_cases lots : input.rule.lotTypes = []
  · rw [if_pos (List.isEmpty_iff.mpr lots)]
    exact Or.inr ⟨_, .noLots lots, rfl⟩
  · rw [if_neg (mt List.isEmpty_iff.mp lots)]
    by_cases part : Covers input.rule.lotTypes input.runcard.part
    · rw [if_neg (by simpa using Rule.covers_iff.mpr part)]
      by_cases wanting : needsSettings = true ∧ input.rule.settings = none
      · rw [if_pos (by simpa using wanting)]
        exact Or.inr ⟨_, .noSettings lots part wanting.1 wanting.2, rfl⟩
      · rw [if_neg (by simpa using wanting)]
        exact Or.inl ⟨by simp [Barred, lots, part, wanting], rfl⟩
    · rw [if_pos (by simpa [← Bool.not_eq_true] using mt Rule.covers_iff.mp part)]
      exact Or.inr ⟨_, .otherLots lots part, rfl⟩

theorem barred_of_bars (bars : Bars needsSettings input reason) : Barred needsSettings input := by
  cases bars with
  | noLots lots => exact Or.inl lots
  | otherLots _ part => exact Or.inr (Or.inl part)
  | noSettings _ _ needed missing => exact Or.inr (Or.inr ⟨needed, missing⟩)

/-- The gates let a rule through exactly if none of them stops it. -/
theorem skipReason?_eq_none_iff :
    skipReason? needsSettings input = none ↔ ¬Barred needsSettings input := by
  rcases gates_cases needsSettings input with ⟨free, passes⟩ | ⟨reason, bars, stopped⟩
  · simp [free, passes]
  · simp [stopped, barred_of_bars bars]

/-- A rule that some gate stops is stopped by the first of them. -/
theorem exists_bars (barred : Barred needsSettings input) :
    ∃ reason, Bars needsSettings input reason ∧ skipReason? needsSettings input = some reason := by
  rcases gates_cases needsSettings input with ⟨free, -⟩ | stopped
  · exact absurd barred free
  · exact stopped

end Check

/-! ## Rules that are stopped, and rules that are not -/

/-- The rule is skipped for a reason, and nobody notices which check it would have had. -/
structure Silent (registry : Registry) (input : CheckInput) (needsSettings : Bool)
    (reason : String) : Prop where
  /-- The result names the reason and nothing else. -/
  result : ∀ source, let r := (registry.dispatch input).run source
    r.ruleType = input.rule.ruleType ∧ r.lamp = .skip ∧
      r.detail.toList = [("msg", .text reason)]
  /-- Nothing is asked. -/
  asks : ∀ source, (registry.dispatch input).queries source = []
  /-- No server is reached. -/
  untouched : ∀ {σ : Type} (serve : (q : Query) → σ → q.Reply × σ) (s : σ),
    ((registry.dispatch input).runServed serve s).2 = s
  /-- Any check that needs settings as this one does gets the same result, from any source. -/
  alike : ∀ (other : Registry) (c : Check), other.get? input.rule.ruleType = some c →
    c.needsSettings = needsSettings → ∀ source source',
      (other.dispatch input).run source' = (registry.dispatch input).run source

/-- The result in which the end of a check is returned. -/
inductive Returned (ruleType : String) : CheckOutcome → Result → Prop
  | verdict (v : Verdict) : Returned ruleType (.ok v) ⟨ruleType, v.lamp, v.detail⟩
  | error (e : CheckError) : Returned ruleType (.error e) (Result.failed ruleType e.message)
  | panicked (p : Payload) :
      Returned ruleType (.panicked p) (Result.failed ruleType ("check panicked: " ++ p.message))

/-- The rule gets what its check comes to in one run. -/
structure RunsOnce (registry : Registry) (input : CheckInput) (c : Check) : Prop where
  returned : ∀ source, Returned input.rule.ruleType ((c.run input).run source)
    ((registry.dispatch input).run source)
  /-- What is asked is what the check asks. -/
  asks : ∀ source, (registry.dispatch input).queries source = (c.run input).queries source
  /-- A server is left as one run of the check leaves it. -/
  served : ∀ {σ : Type} (serve : (q : Query) → σ → q.Reply × σ) (s : σ),
    ((registry.dispatch input).runServed serve s).2 = ((c.run input).runServed serve s).2 ∧
      Returned input.rule.ruleType ((c.run input).runServed serve s).1
        ((registry.dispatch input).runServed serve s).1

namespace Registry

variable {registry : Registry} {input : CheckInput} {c : Check} {reason : String}

theorem returned_file (ruleType : String) (outcome : CheckOutcome) :
    Returned ruleType outcome (Check.file ruleType outcome) := by
  cases outcome with
  | ok v => exact .verdict v
  | error e => exact .error e
  | panicked p => exact .panicked p

theorem dispatch_of_stopped (registered : registry.get? input.rule.ruleType = some c)
    (stopped : Check.skipReason? c.needsSettings input = some reason) :
    registry.dispatch input =
      .done (Result.ofVerdict input.rule.ruleType (Verdict.skip reason)) := by
  simp only [dispatch, check?, registered, Check.evaluate, stopped]

theorem dispatch_of_passes (registered : registry.get? input.rule.ruleType = some c)
    (passes : Check.skipReason? c.needsSettings input = none) :
    registry.dispatch input = (c.run input).map (Check.file input.rule.ruleType) := by
  simp only [dispatch, check?, registered, Check.evaluate, passes]

theorem silent_of_stopped (registered : registry.get? input.rule.ruleType = some c)
    (stopped : Check.skipReason? c.needsSettings input = some reason) :
    Silent registry input c.needsSettings reason := by
  have skipped := dispatch_of_stopped registered stopped
  refine ⟨fun source => ?_, fun source => ?_, fun serve s => ?_, ?_⟩
  · rw [skipped]
    exact ⟨rfl, rfl, rfl⟩
  · rw [skipped]
    rfl
  · rw [skipped]
    rfl
  · intro other d registered' needs source source'
    rw [skipped, dispatch_of_stopped registered' (needs ▸ stopped)]
    rfl

theorem runsOnce_of_passes (registered : registry.get? input.rule.ruleType = some c)
    (passes : Check.skipReason? c.needsSettings input = none) :
    RunsOnce registry input c := by
  have run := dispatch_of_passes registered passes
  refine ⟨fun source => ?_, fun source => ?_, fun serve s => ⟨?_, ?_⟩⟩
  · rw [run, Inquiry.run_map]
    exact returned_file _ _
  · rw [run, Inquiry.queries_map]
  · rw [run, Inquiry.runServed_map]
    rfl
  · rw [run, Inquiry.runServed_map]
    exact returned_file _ _

/-- A rule of a registered type that a gate stops is skipped in silence, with the message of
the first gate that stops it.  Every other rule gets what one run of its check comes to. -/
theorem dispatch_gates (registered : registry.get? input.rule.ruleType = some c) :
    (Barred c.needsSettings input →
      ∃ reason, Bars c.needsSettings input reason ∧
        Silent registry input c.needsSettings reason) ∧
    (¬Barred c.needsSettings input → RunsOnce registry input c) := by
  constructor
  · intro barred
    obtain ⟨reason, bars, stopped⟩ := Check.exists_bars barred
    exact ⟨reason, bars, silent_of_stopped registered stopped⟩
  · intro free
    exact runsOnce_of_passes registered (Check.skipReason?_eq_none_iff.mpr free)

/-- A check that asks one thing and breaks off is not noticed where the lot types do not cover
the part, nor where it lacks settings.  Elsewhere it asks once. -/
theorem dispatch_gates_of_panic :
    let broken : Check :=
      ⟨true, fun _ => .ask (.wafer "RC-1") fun _ => .done (.panicked (.text "no counts"))⟩
    let registry : Registry := Registry.builtin.insert "Custom" broken
    let runcard : Runcard := { Runcard.ofId "RC-1" with part := some "TM1" }
    let input := fun (lots : List String) (settings : Option Settings) =>
      (⟨⟨"C1", "T1", "R"⟩, runcard, ⟨"Custom", lots, settings⟩⟩ : CheckInput)
    registry.get? "Custom" = some broken ∧
      Silent registry (input ["C/W", "EQ"] none) true "lotType mismatch => skip check" ∧
      Silent registry (input ["EQ", "Prod"] none) true "No settings => skip check" ∧
      RunsOnce registry (input ["EQ", "Prod"] (some Entries.empty)) broken ∧
      (registry.dispatch (input ["EQ", "Prod"] (some Entries.empty))).queries Source.empty =
        [.wafer "RC-1"] := by
  intro broken registry runcard input
  have registered : registry.get? "Custom" = some broken := by
    rw [Entries.get?_insert, if_pos rfl]
  have start : "TM".toList <+: "TM1".toList := by decide
  have uncovered : ¬Covers ["C/W", "EQ"] (some "TM1") := by
    rintro (⟨lot, -⟩ | ⟨-, other⟩)
    · simp at lot
    · exact other start
  have covered : Covers ["EQ", "Prod"] (some "TM1") := .production (by simp) start
  refine ⟨registered, ?_, ?_, ?_, rfl⟩
  · obtain ⟨reason, bars, silent⟩ :=
      (@dispatch_gates registry (input ["C/W", "EQ"] none) broken registered).1
        (Or.inr (Or.inl uncovered))
    cases bars with
    | otherLots => exact silent
    | noLots lots => cases lots
    | noSettings _ part => exact absurd part uncovered
  · obtain ⟨reason, bars, silent⟩ :=
      (@dispatch_gates registry (input ["EQ", "Prod"] none) broken registered).1
        (Or.inr (Or.inr ⟨rfl, rfl⟩))
    cases bars with
    | noSettings => exact silent
    | noLots lots => cases lots
    | otherLots _ part => exact absurd covered part
  · refine (@dispatch_gates registry (input ["EQ", "Prod"] (some Entries.empty)) broken
      registered).2 ?_
    rintro (lots | part | ⟨-, missing⟩)
    · cases lots
    · exact part covered
    · cases missing

end Registry
end RuncardReview
