import RuncardReview.Check.Basic
import RuncardReview.Check.EmptyPolicy

/-!
# From a verdict to the result of a rule

A rule that passes the gates gets the result of its check.  If the check asks one thing and is
answered, this is what it says of the answer, filed under the type of the rule.

**Results.**
* `Check.run_evaluate`: behind the gates the check decides.
* `Check.run_evaluate_lookUp`: what a check says of the one answer that it asks for.
* `EmptyPolicy.verdict_lamp`: the lamp for what was not found.
-/

namespace RuncardReview

namespace Lamp

variable {P : Prop} [Decidable P]

theorem green_or_red_eq_pass_iff : (if P then pass else fail) = pass ↔ P := by
  split <;> simp [*]

theorem green_or_red_eq_fail_iff : (if P then pass else fail) = fail ↔ ¬P := by
  split <;> simp [*]

end Lamp

@[simp] theorem Value.texts_inj {ss ts : List String} :
    Value.texts ss = Value.texts ts ↔ ss = ts := by
  rw [Value.texts, Value.texts, Value.list.injEq, List.map_inj_right fun _ _ => Value.text.inj]

namespace Verdict

@[simp] theorem ofLamp_lamp (lamp : Lamp) :
    (ofLamp lamp).lamp = lamp := rfl

@[simp] theorem note_lamp (v : Verdict) (name : String) (value : Value) :
    (v.note name value).lamp = v.lamp := rfl

theorem get?_note (v : Verdict) (name : String) (value : Value) (key : String) :
    (v.note name value).detail.get? key = if name = key then some value else v.detail.get? key :=
  Entries.get?_insert _ _ _ _

/-- What is noted under one name stands there. -/
theorem get?_note_self (v : Verdict) (name : String) (value : Value) :
    (v.note name value).detail.get? name = some value := by
  rw [get?_note, if_pos rfl]

/-- A note under another name changes nothing. -/
theorem get?_note_of_ne (v : Verdict) {name key : String} (other : name ≠ key) (value : Value) :
    (v.note name value).detail.get? key = v.detail.get? key := by
  rw [get?_note, if_neg other]

end Verdict

namespace EmptyPolicy

/-- The lamp of a check that found nothing. -/
def lamp : EmptyPolicy → Lamp
  | skip => .skip
  | pass => .pass
  | fail => .fail

theorem verdict_lamp (p : EmptyPolicy) (what : String) : (p.verdict what).lamp = p.lamp := by
  cases p <;> rfl

end EmptyPolicy

namespace Check

variable {c : Check} {input : CheckInput} {source : Source}

/-- A rule that passes the gates gets what its check comes to. -/
theorem run_evaluate (passes : skipReason? c.needsSettings input = none) (source : Source) :
    (c.evaluate input).run source = file input.rule.ruleType ((c.run input).run source) := by
  rw [evaluate, passes, Inquiry.run_map]

/-- A check that asks one thing, and is answered, comes to the verdict on the answer. -/
theorem run_evaluate_lookUp {q : Query} {a : q.Answer} {verdict : q.Answer → Verdict}
    (passes : skipReason? c.needsSettings input = none) (found : source q = .ok a)
    (asks : c.run input = lookUp q fun answer => .ok (verdict answer)) :
    (c.evaluate input).run source = Result.ofVerdict input.rule.ruleType (verdict a) := by
  rw [run_evaluate passes, asks, lookUp, Inquiry.run, found]
  rfl

/-- A check that asks one thing asks it once, whatever comes back. -/
theorem queries_lookUp (q : Query) (next : q.Answer → CheckOutcome) (source : Source) :
    (lookUp q next).queries source = [q] := by
  rw [lookUp, Inquiry.queries]
  cases source q <;> rfl

/-- Behind the gates of a check that needs settings there are some. -/
theorem exists_settings (passes : skipReason? true input = none) :
    ∃ s, input.rule.settings = some s := by
  unfold skipReason? at passes
  split at passes
  · cases passes
  split at passes
  · cases passes
  split at passes
  · cases passes
  · rename_i configured
    simpa [Option.isNone_iff_eq_none, ← ne_eq, Option.ne_none_iff_exists'] using configured

end Check

end RuncardReview
