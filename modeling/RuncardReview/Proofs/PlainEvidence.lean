import RuncardReview.Proofs.CheckResults
import RuncardReview.Proofs.JsonForms
import RuncardReview.Proofs.LampAgreement

/-!
# The doubles in the evidence of the checks

The evidence of the checks consists of whole numbers, truth values, texts and lists of these, with
one exception: the counts of the wafers, which are kept as the doubles that were compared.  They are
read from texts, of which some, such as `inf`, `nan` or `1e999`, stand for no finite number.

**Results.**
* `RuleKind.plain_run`: the other checks keep doubles out of their evidence.
* `WaferCondition.run_check`: what the check of the counts comes to.
* `Registry.dispatch_cases`: a result has no doubles, or it has the two counts.
* `Registry.dispatch_wafer`: it has them if they can be read and the rule is not skipped.
-/

namespace RuncardReview

open Number Text

/-! ## Evidence without doubles -/

namespace Value

/-- There is no double in the value. -/
def Plain (v : Value) : Prop :=
  v.floats = []

/-- All doubles in the value are finite. -/
def Finite (v : Value) : Prop :=
  ∀ x ∈ v.floats, isFinite x = true

theorem Plain.finite {v : Value} (plain : v.Plain) : v.Finite := by
  intro x hx
  rw [plain] at hx
  cases hx

theorem finite_float {x : Float} (finite : isFinite x = true) : (float x).Finite := by
  intro y hy
  rw [List.mem_singleton.mp hy]
  exact finite

theorem plain_text (s : String) : (text s).Plain := rfl

theorem plain_bool (b : Bool) : (bool b).Plain := rfl

theorem plain_count (n : Nat) : (count n).Plain := rfl

theorem plain_list : ∀ {xs : List Value}, (∀ x ∈ xs, x.Plain) → (list xs).Plain
  | [], _ => rfl
  | x :: xs, plain => by
      have here : x.floats = [] := plain x List.mem_cons_self
      have there : floatsAll xs = [] := plain_list fun y hy => plain y (List.mem_cons_of_mem x hy)
      rw [Plain, floats, floatsAll, here, there, List.append_nil]

theorem plain_texts (ss : List String) : (texts ss).Plain := by
  refine plain_list fun x hx => ?_
  obtain ⟨s, -, rfl⟩ := List.mem_map.mp hx
  exact plain_text s

end Value

namespace Entries

variable {α : Type} {P : α → Prop} {s : Entries α}

/-- All values under the names have the property. -/
def All (P : α → Prop) (s : Entries α) : Prop :=
  ∀ e ∈ s.toList, P e.2

theorem all_empty : (empty : Entries α).All P :=
  List.forall_mem_nil _

theorem All.insert (all : s.All P) {v : α} (holds : P v) (k : String) : (s.insert k v).All P := by
  intro e he
  rcases mem_put he with rfl | he
  · exact holds
  · exact all e he

theorem All.of_get? {k : String} {v : α} (all : s.All P) (found : s.get? k = some v) : P v :=
  all (k, v) (get?_eq_some_iff.mp found)

theorem finite_iff {s : Entries Value} :
    (∀ x ∈ s.floats, isFinite x = true) ↔ s.All Value.Finite := by
  simp only [floats, List.mem_flatMap, All, Value.Finite]
  constructor
  · intro h e he x hx
    exact h x ⟨e, he, hx⟩
  · rintro h x ⟨e, he, hx⟩
    exact h e he x hx

end Entries

/-- There is no double in the evidence. -/
def Verdict.Plain (v : Verdict) : Prop :=
  v.detail.All Value.Plain

theorem Verdict.plain_ofLamp (lamp : Lamp) : (ofLamp lamp).Plain :=
  Entries.all_empty

theorem Verdict.Plain.note {v : Verdict} (plain : v.Plain) {value : Value} (none : value.Plain)
    {name : String} : (v.note name value).Plain :=
  Entries.All.insert plain none name

theorem Verdict.plain_skip (reason : String) : (skip reason).Plain :=
  (plain_ofLamp .skip).note (Value.plain_text _)

theorem EmptyPolicy.plain_verdict (p : EmptyPolicy) (what : String) : (p.verdict what).Plain := by
  cases p with
  | skip => exact Verdict.plain_skip _
  | pass => exact (Verdict.plain_ofLamp .pass).note (Value.plain_text _)
  | fail => exact (Verdict.plain_ofLamp .fail).note (Value.plain_text _)

/-- A check that comes to a verdict has put no double into its evidence. -/
def CheckOutcome.Plain (x : CheckOutcome) : Prop :=
  ∀ v, x = .ok v → v.Plain

theorem CheckOutcome.Plain.ok {v : Verdict} (plain : v.Plain) : CheckOutcome.Plain (.ok v) := by
  rintro _ ⟨⟩
  exact plain

theorem CheckOutcome.Plain.error (e : CheckError) : CheckOutcome.Plain (.error e) := by
  rintro _ ⟨⟩

theorem CheckOutcome.Plain.panicked (p : Payload) : CheckOutcome.Plain (.panicked p) := by
  rintro _ ⟨⟩

namespace Check

theorem plain_lookUp {q : Query} {next : q.Answer → CheckOutcome} (source : Source)
    (plain : ∀ a, CheckOutcome.Plain (next a)) :
    CheckOutcome.Plain ((lookUp q next).run source) := by
  simp only [lookUp, Inquiry.run]
  cases source q with
  | ok a => exact plain a
  | error e => exact .error (.source e)
  | panicked p => exact .panicked p

theorem plain_file (t : String) {x : CheckOutcome} (plain : x.Plain) :
    (file t x).detail.All Value.Plain := by
  cases x with
  | ok v => exact plain v rfl
  | error e => exact Entries.all_empty.insert (Value.plain_text _) "error"
  | panicked p => exact Entries.all_empty.insert (Value.plain_text _) "error"

end Check

/-! ## The checks -/

theorem ForwardProcess.plain_verdict (rule : Rule) (records : List ProcessRecord) :
    (verdict rule records).Plain := by
  simp only [verdict]
  split
  · exact (EmptyPolicy.plain_verdict _ _).note (Value.plain_count _)
  · refine (((Verdict.plain_ofLamp _).note (Value.plain_count _)).note (Value.plain_count _)).note
      (Value.plain_list fun x hx => ?_)
    obtain ⟨r, -, rfl⟩ := List.mem_map.mp hx
    exact Value.plain_count _

theorem InhibitionStatus.plain_verdict (rule : Rule) (records : List InhibitionRecord) :
    (verdict rule records).Plain := by
  simp only [verdict]
  split
  · exact EmptyPolicy.plain_verdict _ _
  · exact ((Verdict.plain_ofLamp _).note (Value.plain_count _)).note (Value.plain_texts _)

theorem RecipeGroupBlue.plain_verdict (policy : EmptyPolicy) (c : Condition)
    (records : List ReleaseRecord) :
    (verdict policy c records).Plain := by
  simp only [verdict]
  split
  · exact EmptyPolicy.plain_verdict _ _
  · exact (((Verdict.plain_ofLamp _).note (Value.plain_text _)).note (Value.plain_count _)).note
      (Value.plain_texts _)

theorem RuncardOwner.plain_verdict (s : Settings) (engineer : String) (found : Option String) :
    (verdict s engineer found).Plain := by
  have plain : ∀ lamp owner listed, ((((Verdict.ofLamp lamp).note "engineer" (.text engineer)).note
      "ownerMatch" (.bool owner)).note "sectionMatch" (.bool listed)).Plain := fun lamp _ _ =>
    (((Verdict.plain_ofLamp lamp).note (Value.plain_text _)).note (Value.plain_bool _)).note
      (Value.plain_bool _)
  cases found with
  | none => exact plain _ _ _
  | some name => exact (plain _ _ _).note (Value.plain_text name)

/-- The numbers that both counts of a lot stand for, if each can be read. -/
def WaferCounts.numbers? (counts : WaferCounts) : Option (Float × Float) := do
  let unique ← readFloat (trimChars counts.unique.toList)
  let quantity ← readFloat (trimChars counts.quantity.toList)
  return (unique, quantity)

namespace WaferCondition

/-- The numbers of a runcard's lot, if a source has its counts and they can be read. -/
def numbers? (source : Source) (runcard : String) : Option (Float × Float) :=
  match source (.wafer runcard) with
  | .ok (some counts) => counts.numbers?
  | _ => none

/-- What the verdict on two numbers notes, and under which keys. -/
inductive Notes (unique quantity : Float) : String → Value → Prop
  | unique : Notes unique quantity "uniqueWaferCount" (.float unique)
  | quantity : Notes unique quantity "waferQty" (.float quantity)

theorem get?_compare {unique quantity : Float} {key : String} {value : Value} :
    (compare unique quantity).detail.get? key = some value ↔
      Notes unique quantity key value := by
  have nothing : ∀ lamp, (Verdict.ofLamp lamp).detail.get? key = none := fun _ => rfl
  rw [compare, Verdict.get?_note, Verdict.get?_note, nothing]
  constructor
  · intro found
    split at found
    · rename_i here
      cases found
      exact here ▸ .quantity
    · split at found
      · rename_i here
        cases found
        exact here ▸ .unique
      · cases found
  · rintro (⟨⟩ | ⟨⟩)
    · rw [if_neg (by decide), if_pos rfl]
    · rw [if_pos rfl]

theorem finite_compare {unique quantity : Float} (hu : isFinite unique = true)
    (hq : isFinite quantity = true) :
    (compare unique quantity).detail.All Value.Finite :=
  (Entries.all_empty.insert (Value.finite_float hu) "uniqueWaferCount").insert
    (Value.finite_float hq) "waferQty"

variable {input : CheckInput} {source : Source} {counts : WaferCounts} {unique quantity : Float}

theorem outcome_of_numbers (read : counts.numbers? = some (unique, quantity)) :
    outcome input (some counts) = .ok (compare unique quantity) := by
  simp only [WaferCounts.numbers?, Option.bind_eq_bind, Option.bind_eq_some_iff] at read
  obtain ⟨u, hu, q, hq, both⟩ := read
  cases both
  simp only [outcome, count, hu, hq]

theorem plain_outcome_of_none (unread : counts.numbers? = none) :
    CheckOutcome.Plain (outcome input (some counts)) := by
  intro v ended
  cases hu : readFloat (trimChars counts.unique.toList) with
  | none => simp [outcome, count, hu] at ended
  | some u =>
      cases hq : readFloat (trimChars counts.quantity.toList) with
      | none => simp [outcome, count, hu, hq] at ended
      | some q => simp [WaferCounts.numbers?, hu, hq] at unread

theorem plain_outcome_missing : CheckOutcome.Plain (outcome input none) := by
  intro v ended
  simp only [outcome] at ended
  split at ended
  · cases ended
  · cases ended
    exact EmptyPolicy.plain_verdict _ _

/-- The check comes to the two numbers, or to a verdict without doubles, or to none. -/
theorem run_check (input : CheckInput) (source : Source) :
    (∃ unique quantity, numbers? source input.runcard.id = some (unique, quantity) ∧
        (check.run input).run source = .ok (compare unique quantity)) ∨
      numbers? source input.runcard.id = none ∧
        CheckOutcome.Plain ((check.run input).run source) := by
  simp only [check, Check.lookUp, Inquiry.run, numbers?]
  cases source (.wafer input.runcard.id) with
  | ok answer =>
      cases answer with
      | none => exact Or.inr ⟨rfl, plain_outcome_missing⟩
      | some counts =>
          cases read : counts.numbers? with
          | none => exact Or.inr ⟨read, plain_outcome_of_none read⟩
          | some both => exact Or.inl ⟨both.1, both.2, read, outcome_of_numbers read⟩
  | error e => exact Or.inr ⟨rfl, .error (.source e)⟩
  | panicked p => exact Or.inr ⟨rfl, .panicked p⟩

end WaferCondition

/-- All kinds of checks but that of the wafer counts keep doubles out of their evidence. -/
theorem RuleKind.plain_run {kind : RuleKind} (other : kind ≠ .waferCondition) (input : CheckInput)
    (source : Source) :
    CheckOutcome.Plain ((kind.check.run input).run source) := by
  cases kind with
  | forwardProcess =>
      exact Check.plain_lookUp source fun records =>
        .ok (ForwardProcess.plain_verdict input.rule records)
  | inhibitionStatus =>
      exact Check.plain_lookUp source fun records =>
        .ok (InhibitionStatus.plain_verdict input.rule records)
  | waferCondition => exact absurd rfl other
  | recipeGroupBlue =>
      simp only [check, RecipeGroupBlue.check]
      split
      · exact .ok (EmptyPolicy.plain_verdict _ _)
      · exact Check.plain_lookUp source fun records =>
          .ok (RecipeGroupBlue.plain_verdict _ _ records)
  | runcardOwner =>
      simp only [check, RuncardOwner.check]
      split
      · exact .ok ((Verdict.plain_ofLamp .pass).note (Value.plain_text _))
      · split
        · exact .ok (RuncardOwner.plain_verdict _ _ _)
        · exact Check.plain_lookUp source fun found =>
            .ok (RuncardOwner.plain_verdict _ _ found)

namespace Registry

/-- A result of the library's checks has no doubles in its evidence, or it compares the two
counts. -/
theorem dispatch_cases (input : CheckInput) (source : Source) :
    ((builtin.dispatch input).run source).detail.All Value.Plain ∨
      input.rule.ruleType = "WaferCondition" ∧
        Check.skipReason? WaferCondition.check.needsSettings input = none ∧
        ∃ unique quantity,
          WaferCondition.numbers? source input.runcard.id = some (unique, quantity) ∧
          ((builtin.dispatch input).run source).detail =
            (WaferCondition.compare unique quantity).detail := by
  cases found : builtin.get? input.rule.ruleType with
  | none =>
      simp only [dispatch, check?, found, Inquiry.run]
      exact Or.inl (Entries.all_empty.insert (Value.plain_text _) "error")
  | some check =>
      obtain ⟨kind, name, rfl⟩ := exists_kind_of_builtin found
      simp only [dispatch, check?, found, Check.evaluate]
      cases gates : Check.skipReason? kind.check.needsSettings input with
      | some reason => exact Or.inl (Verdict.plain_skip reason)
      | none =>
          rw [Inquiry.run_map]
          by_cases wafer : kind = .waferCondition
          · subst wafer
            rcases WaferCondition.run_check input source with ⟨u, q, read, ended⟩ | ⟨-, plain⟩
            · exact Or.inr ⟨name.symm, gates, u, q, read, by rw [RuleKind.check, ended]; rfl⟩
            · exact Or.inl (Check.plain_file _ plain)
          · exact Or.inl (Check.plain_file _ (RuleKind.plain_run wafer input source))

/-- With two counts that can be read, a rule of the wafer counts has them in its evidence, unless
it is skipped. -/
theorem dispatch_wafer {input : CheckInput} {source : Source} {unique quantity : Float}
    (type : input.rule.ruleType = "WaferCondition")
    (read : WaferCondition.numbers? source input.runcard.id = some (unique, quantity)) :
    ((builtin.dispatch input).run source).detail =
      match Check.skipReason? WaferCondition.check.needsSettings input with
      | some reason => (Verdict.skip reason).detail
      | none => (WaferCondition.compare unique quantity).detail := by
  have found : builtin.get? input.rule.ruleType = some WaferCondition.check := by
    rw [type]
    rfl
  simp only [dispatch, check?, found, Check.evaluate]
  cases Check.skipReason? WaferCondition.check.needsSettings input with
  | some reason => rfl
  | none =>
      rw [Inquiry.run_map]
      rcases WaferCondition.run_check input source with ⟨u, q, read', ended⟩ | ⟨unread, -⟩
      · cases read.symm.trans read'
        rw [ended]
        rfl
      · cases read.symm.trans unread

end Registry

end RuncardReview
