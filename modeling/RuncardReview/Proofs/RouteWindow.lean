import Mathlib.Data.List.Infix
import RuncardReview.Proofs.CheckResults
import RuncardReview.Proofs.LampAgreement

/-!
# Which steps of a route are checked

The check of a route sorts the records by their steps and looks at the first few.  Which ones these
are is said here without sorting: a record is among them if few enough records precede it, by a
smaller step or, at the same step, by an earlier place in the source.  The records are therefore
taken together with their places.  With the places the order is strict, so that in a sorted route
the number of those that precede a record is the number of those that stand in front of it.

**Results.**
* `take_eq_filter_of_pairwise`: the front of a strictly ordered list, by counting.
* `window_eq_map`: the records that are held against the patterns.
* `passes_eq_false_iff`: the records that violate the patterns.
* `evaluate_route`: the result of a rule on the next steps of a route.
-/

namespace RuncardReview

open Text

/-! ## Counting predecessors -/

/-- In a strictly ordered list the first `n` entries are those that fewer than `n` precede. -/
theorem take_eq_filter_of_pairwise {α : Type} {R : α → α → Prop} [DecidableRel R] {l : List α}
    (ordered : l.Pairwise R) (asymm : ∀ a b, R a b → ¬R b a) (n : Nat) :
    l.take n = l.filter fun a => l.countP (fun b => R b a) < n := by
  induction l generalizing n with
  | nil => simp
  | cons a l ih =>
      obtain ⟨first, rest⟩ := List.pairwise_cons.mp ordered
      cases n with
      | zero => simp
      | succ n =>
          have front : (a :: l).countP (fun b => R b a) = 0 := by
            refine List.countP_eq_zero.mpr fun b hb => ?_
            rw [decide_eq_true_iff]
            rcases List.mem_cons.mp hb with rfl | hb
            · exact fun self => asymm b b self self
            · exact asymm a b (first b hb)
          have behind : ∀ b ∈ l, (a :: l).countP (fun d => R d b) = l.countP (fun d => R d b) + 1 :=
            fun b hb => List.countP_cons_of_pos (decide_eq_true (first b hb))
          rw [List.take_succ_cons, List.filter_cons_of_pos (by simp [front]), ih rest]
          congr 1
          refine List.filter_congr fun b hb => ?_
          rw [behind b hb]
          simp

theorem occursIn_iff {p s : List Char} :
    occursIn p s = true ↔ p <:+: s := by
  induction s with
  | nil => simp [occursIn]
  | cons c s ih => simp [occursIn, List.infix_cons_iff, ih, List.isPrefixOf_iff_prefix]

namespace ForwardProcess

/-! ## The specification -/

/-- A record, with its place in the source, comes before another one. -/
def Precedes (d e : ProcessRecord × Nat) : Prop :=
  d.1.step < e.1.step ∨ d.1.step = e.1.step ∧ d.2 < e.2

instance : DecidableRel Precedes :=
  fun d e => inferInstanceAs (Decidable (d.1.step < e.1.step ∨ d.1.step = e.1.step ∧ d.2 < e.2))

/-- How many steps a rule looks at: three if its setting is missing or no number, and none if it is
negative. -/
def limit (s : Settings) : Nat :=
  match (s.get? "forwardSteps").bind Value.int? with
  | none => 3
  | some n => if n < 0 then 0 else n.toInt.toNat

/-- A record is checked if it is among the first ones and, where only measurements count, if it is
a measurement. -/
def IsChecked (s : Settings) (records : List ProcessRecord) (e : ProcessRecord × Nat) : Prop :=
  (records.zipIdx.countP fun d => Precedes d e) < limit s ∧
    (s.bool "measurementOnly" false = true → e.1.category = "Measurement")

instance (s : Settings) (records : List ProcessRecord) : DecidablePred (IsChecked s records) :=
  fun _ => inferInstanceAs (Decidable (_ ∧ (_ → _)))

/-- The records that are checked, with their places. -/
def checked (s : Settings) (records : List ProcessRecord) : List (ProcessRecord × Nat) :=
  records.zipIdx.filter fun e => IsChecked s records e

/-- The pattern, without one leading `%`, is part of the id. -/
def Matches (pattern id : String) : Prop :=
  (if pattern.toList.head? = some '%' then pattern.toList.tail else pattern.toList) <:+: id.toList

instance (pattern id : String) : Decidable (Matches pattern id) :=
  List.decidableInfix _ _

/-- There are patterns for the recipe and none of them matches, or one for the tool does not. -/
def Violates (s : Settings) (r : ProcessRecord) : Prop :=
  (s.texts "recipeIds" ≠ [] ∧ ∀ p ∈ s.texts "recipeIds", ¬Matches p r.recipe) ∨
    ∃ p ∈ s.texts "toolIds", ¬Matches p r.tool

instance (s : Settings) : DecidablePred (Violates s) :=
  fun _ => inferInstanceAs (Decidable (_ ∨ _))

/-- What a result says of the records that are checked. -/
structure Judges (s : Settings) (records : List ProcessRecord) (result : Result) : Prop where
  fails : result.lamp = .fail ↔ ∃ e ∈ checked s records, Violates s e.1
  holds : result.lamp = .pass ↔ ∀ e ∈ checked s records, ¬Violates s e.1
  failSteps : ∃ steps : List UInt32, steps.Pairwise (· ≤ ·) ∧
    steps.Perm (((checked s records).filter fun e => Violates s e.1).map fun e => e.1.step) ∧
    result.detail.get? "failSteps" = some (.list (steps.map fun n => .count n.toNat))
  checkedSteps : result.detail.get? "checkedSteps" = some (.count (checked s records).length)

/-! ## The window -/

section Window

variable {s : Settings} {records : List ProcessRecord}

theorem Precedes.asymm (d e : ProcessRecord × Nat) (before : Precedes d e) :
    ¬Precedes e d := by
  rintro (less | ⟨same, later⟩)
  · rcases before with less' | ⟨same', -⟩
    · exact UInt32.lt_asymm less less'
    · exact UInt32.lt_irrefl _ (same' ▸ less)
  · rcases before with less' | ⟨-, earlier⟩
    · exact UInt32.lt_irrefl _ (same ▸ less')
    · omega

theorem limit_eq (s : Settings) : stepCount s = limit s := by
  rw [stepCount, Settings.int, limit]
  cases (s.get? "forwardSteps").bind Value.int? with
  | none => rfl
  | some n =>
      show n.toInt.toNat = if n < 0 then 0 else n.toInt.toNat
      split
      · rename_i negative
        have below : n.toInt < 0 := by simpa using Int64.lt_iff_toInt_lt.mp negative
        exact Int.toNat_of_nonpos (Int.le_of_lt below)
      · rfl

/-- The records in ascending order, with their places. -/
def placedByStep (records : List ProcessRecord) : List (ProcessRecord × Nat) :=
  records.zipIdx.mergeSort (List.zipIdxLE fun a b => decide (a.step ≤ b.step))

theorem map_fst_placedByStep (records : List ProcessRecord) :
    (placedByStep records).map Prod.fst = byStep records :=
  List.mergeSort_zipIdx

theorem placedByStep_perm (records : List ProcessRecord) :
    (placedByStep records).Perm records.zipIdx :=
  List.mergeSort_perm _ _

/-- The sorting is stable, so the places decide where the steps do not. -/
theorem pairwise_placedByStep (records : List ProcessRecord) :
    (placedByStep records).Pairwise Precedes := by
  have sorted := List.pairwise_mergeSort (List.zipIdxLE_trans step_trans)
    (List.zipIdxLE_total step_total) records.zipIdx
  have places : (placedByStep records).Pairwise fun d e => d.2 ≠ e.2 := by
    refine List.pairwise_map.mp (((placedByStep_perm records).map Prod.snd).nodup_iff.mpr ?_)
    rw [List.zipIdx_map_snd]
    exact List.nodup_range'
  refine (sorted.and places).imp fun {d e} ⟨le, apart⟩ => ?_
  simp only [List.zipIdxLE, decide_eq_true_eq] at le
  split at le
  · rename_i forth
    split at le
    · rename_i back
      exact Or.inr ⟨UInt32.le_antisymm forth back, by have := of_decide_eq_true le; omega⟩
    · rename_i back
      exact Or.inl (UInt32.not_le.mp back)
  · cases le

/-- The records that are checked, in ascending order. -/
def ordered (s : Settings) (records : List ProcessRecord) : List (ProcessRecord × Nat) :=
  (placedByStep records).filter fun e => IsChecked s records e

theorem ordered_perm (s : Settings) (records : List ProcessRecord) :
    (ordered s records).Perm (checked s records) :=
  (placedByStep_perm records).filter _

theorem window_eq_map (s : Settings) (records : List ProcessRecord) :
    window s records = (ordered s records).map Prod.fst := by
  have first : (placedByStep records).take (limit s) =
      (placedByStep records).filter fun e =>
        (records.zipIdx.countP fun d => Precedes d e) < limit s := by
    rw [take_eq_filter_of_pairwise (pairwise_placedByStep records) Precedes.asymm]
    simp only [(placedByStep_perm records).countP_eq]
  have sorted : (records.mergeSort fun a b => decide (a.step ≤ b.step)) =
      (placedByStep records).map Prod.fst := (map_fst_placedByStep records).symm
  rw [window, limit_eq, sorted, ← List.map_take, first, List.filter_map, List.filter_filter,
    ordered]
  congr 1
  refine List.filter_congr fun e _ => ?_
  rw [Bool.eq_iff_iff]
  simp [IsChecked, and_comm, imp_iff_not_or]

theorem window_eq_nil_iff : window s records = [] ↔ checked s records = [] := by
  rw [window_eq_map, List.map_eq_nil_iff, ← List.perm_nil, ← List.perm_nil]
  exact (ordered_perm s records).congr_left _

theorem length_window (s : Settings) (records : List ProcessRecord) :
    (window s records).length = (checked s records).length := by
  rw [window_eq_map, List.length_map, (ordered_perm s records).length_eq]

end Window

/-! ## The verdict -/

section Verdict

variable {s : Settings} {rule : Rule} {records : List ProcessRecord}

theorem patternHolds_iff {pattern id : String} :
    patternHolds pattern id = true ↔ Matches pattern id := by
  unfold patternHolds Matches
  split
  · rename_i p begins
    simp [begins, occursIn_iff]
  · rename_i p other
    have plain : pattern.toList.head? ≠ some '%' := by
      intro mark
      cases chars : pattern.toList with
      | nil => simp [chars] at mark
      | cons c p =>
          obtain rfl : c = '%' := by simpa [chars] using mark
          exact other p chars
    rw [if_neg plain, occursIn_iff]

theorem passes_eq_false_iff {r : ProcessRecord} :
    passes (s.texts "recipeIds") (s.texts "toolIds") r = false ↔ Violates s r := by
  simp only [passes, Violates, Bool.and_eq_false_iff, Bool.or_eq_false_iff,
    List.isEmpty_eq_false_iff, List.any_eq_false, List.all_eq_false, patternHolds_iff]

/-- The records that violate the patterns, as the check comes upon them. -/
def failing (s : Settings) (records : List ProcessRecord) : List ProcessRecord :=
  (window s records).filter fun r => !passes (s.texts "recipeIds") (s.texts "toolIds") r

theorem failing_sorted (s : Settings) (records : List ProcessRecord) :
    ((failing s records).map ProcessRecord.step).Pairwise (· ≤ ·) := by
  refine List.pairwise_map.mpr ?_
  have taken := (pairwise_byStep records).sublist (List.take_sublist (stepCount s) _)
  exact (taken.filter _).filter _

theorem failing_perm (s : Settings) (records : List ProcessRecord) :
    ((failing s records).map ProcessRecord.step).Perm
      (((checked s records).filter fun e => Violates s e.1).map fun e => e.1.step) := by
  have violating : ∀ e : ProcessRecord × Nat,
      (!passes (s.texts "recipeIds") (s.texts "toolIds") e.1) = decide (Violates s e.1) := by
    intro e
    rw [Bool.eq_iff_iff, Bool.not_eq_true', passes_eq_false_iff, decide_eq_true_iff]
  rw [failing, window_eq_map, List.filter_map, List.map_map]
  simp only [Function.comp_def, violating]
  exact ((ordered_perm s records).filter _).map _

theorem failing_eq_nil_iff :
    failing s records = [] ↔ ∀ e ∈ checked s records, ¬Violates s e.1 := by
  rw [← List.map_eq_nil_iff (f := ProcessRecord.step), ← List.perm_nil,
    (failing_perm s records).congr_left, List.perm_nil, List.map_eq_nil_iff, List.filter_eq_nil_iff]
  simp only [decide_eq_true_eq]

/-- With nothing to check the policy of the rule decides. -/
theorem verdict_of_none (configured : rule.settings = some s) (none : window s records = []) :
    verdict rule records =
      ((EmptyPolicy.ofRule rule .pass).verdict "forward process").note
        "forwardSteps" (.count (stepCount s)) := by
  simp only [verdict, configured, Option.getD_some, none, List.isEmpty_nil, if_true]

/-- Otherwise the records that violate the patterns do. -/
theorem verdict_of_some (configured : rule.settings = some s) (any : window s records ≠ []) :
    verdict rule records =
      (((Verdict.ofLamp (if failing s records = [] then .pass else .fail)).note
        "forwardSteps" (.count (stepCount s))).note
        "checkedSteps" (.count (window s records).length)).note
        "failSteps" (.list ((failing s records).map fun r => .count r.step.toNat)) := by
  have some : (window s records).isEmpty = false := List.isEmpty_eq_false_iff.mpr any
  simp only [verdict, configured, Option.getD_some, some, failing, List.isEmpty_iff]
  rfl

theorem judges_of_some (configured : rule.settings = some s) (any : checked s records ≠ [])
    (ruleType : String) :
    Judges s records (Result.ofVerdict ruleType (verdict rule records)) := by
  rw [verdict_of_some configured (mt window_eq_nil_iff.mp any), Result.ofVerdict]
  refine ⟨?fails, ?holds, ?failSteps, ?checkedSteps⟩
  case fails =>
    simp only [Verdict.note_lamp, Verdict.ofLamp_lamp, Lamp.green_or_red_eq_fail_iff,
      failing_eq_nil_iff]
    push Not
    rfl
  case holds =>
    simp only [Verdict.note_lamp, Verdict.ofLamp_lamp, Lamp.green_or_red_eq_pass_iff,
      failing_eq_nil_iff]
  case failSteps =>
    refine ⟨_, failing_sorted s records, failing_perm s records, ?_⟩
    rw [List.map_map]
    exact Verdict.get?_note_self _ _ _
  case checkedSteps =>
    rw [Verdict.get?_note_of_ne _ (by decide), Verdict.get?_note_self, length_window]

theorem verdict_forwardSteps (configured : rule.settings = some s) :
    (verdict rule records).detail.get? "forwardSteps" = some (.count (limit s)) := by
  rw [← limit_eq]
  by_cases none : window s records = []
  · rw [verdict_of_none configured none]
    exact Verdict.get?_note_self _ _ _
  · rw [verdict_of_some configured none, Verdict.get?_note_of_ne _ (by decide),
      Verdict.get?_note_of_ne _ (by decide)]
    exact Verdict.get?_note_self _ _ _

end Verdict

/-- A rule on the next steps of a route that passes the gates is judged by the records that are
checked, or by its policy if there are none. -/
theorem evaluate_route (input : CheckInput) (source : Source) (records : List ProcessRecord)
    (passes : Check.skipReason? check.needsSettings input = none)
    (found : source (.forward input.runcard.id input.condition.label) = .ok records) :
    ∃ s, input.rule.settings = some s ∧
      let result := (check.evaluate input).run source
      result.ruleType = input.rule.ruleType ∧
        result.detail.get? "forwardSteps" = some (.count (limit s)) ∧
        (checked s records = [] →
          result.lamp = (EmptyPolicy.ofRule input.rule .pass).lamp) ∧
        (checked s records ≠ [] → Judges s records result) := by
  obtain ⟨s, configured⟩ := Check.exists_settings passes
  have result : (check.evaluate input).run source =
      Result.ofVerdict input.rule.ruleType (verdict input.rule records) :=
    Check.run_evaluate_lookUp passes found rfl
  refine ⟨s, configured, ?_⟩
  rw [result]
  refine ⟨rfl, verdict_forwardSteps configured, fun none => ?_, fun any => ?_⟩
  · rw [verdict_of_none configured (window_eq_nil_iff.mpr none)]
    exact EmptyPolicy.verdict_lamp _ _
  · exact judges_of_some configured any _

/-! ## Steps of the same number -/

namespace Tied

def route : List ProcessRecord :=
  [⟨20, "CD-MEAS", "MT01", "Measurement"⟩, ⟨10, "ETCH", "ET01", "Process"⟩,
    ⟨20, "OTHER", "ZZ01", "Measurement"⟩, ⟨10, "OTHER", "MT02", "Measurement"⟩]

def source : Source
  | .forward .. => .ok route
  | q => .ok q.noAnswer

def settings : Settings :=
  Entries.ofList [("forwardSteps", .text " 3 "), ("measurementOnly", .text "Y"),
    ("recipeIds", .text "%MEAS, ETCH")]

def input : CheckInput :=
  ⟨⟨"C1", "T1", "R"⟩, { Runcard.ofId "RC-1" with part := some "TM1" },
    ⟨"ForwardProcess", ["Prod"], some settings⟩⟩

end Tied

open Tied in
/-- Of the two records with the later step only the one that comes first in the source is looked
at, and of those with the earlier step only the measurement is checked. -/
theorem evaluate_route_of_ties :
    let result := (check.evaluate input).run source
    Check.skipReason? check.needsSettings input = none ∧
      source (.forward "RC-1" "C1") = .ok route ∧
      (checked settings route).map Prod.snd = [0, 3] ∧
      result.lamp = .fail ∧
      result.detail.get? "failSteps" = some (.list [.count 10]) ∧
      result.detail.get? "checkedSteps" = some (.count 2) := by
  intro result
  have passes : Check.skipReason? check.needsSettings input = none := by decide +kernel
  have places : (checked settings route).map Prod.snd = [0, 3] := by decide +kernel
  have violations : ((checked settings route).filter fun e => Violates settings e.1).map
      (fun e => e.1.step) = [10] := by decide +kernel
  obtain ⟨s, configured, -, -, -, judged⟩ := evaluate_route input source route passes rfl
  obtain rfl : settings = s := Option.some.inj configured
  have any : checked settings route ≠ [] := by
    intro none
    simp [none] at places
  have length : (checked settings route).length = 2 := by
    rw [← List.length_map (f := Prod.snd), places]
    rfl
  obtain ⟨fails, -, ⟨steps, -, perm, listed⟩, count⟩ := judged any
  rw [violations, List.perm_singleton] at perm
  rw [perm] at listed
  rw [length] at count
  exact ⟨passes, rfl, places, fails.mpr (by decide +kernel), listed, count⟩

end ForwardProcess
end RuncardReview
