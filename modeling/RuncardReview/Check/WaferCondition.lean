import RuncardReview.Check.Basic
import RuncardReview.Check.EmptyPolicy

/-!
# Wafer counts

The number of distinct wafers of a lot must equal its wafer quantity.  Both are
stored as texts and compared as doubles.
-/

namespace RuncardReview
namespace WaferCondition

open Text Number

/-- The distance from one to the next double, `2 ^ -52`. -/
def tolerance : Float := 2.220446049250313e-16

/-- Whether two counts are closer than the tolerance. -/
def countsAgree (unique quantity : Float) : Bool :=
  decide ((unique - quantity).abs < tolerance)

/-- The number that a stored count stands for. -/
def count (field raw : String) : Except CheckError Float :=
  match readFloat (trimChars raw.toList) with
  | some x => .ok x
  | none => .error (.malformedData field raw)

/-- The verdict on two counts that could be read. -/
def compare (unique quantity : Float) : Verdict :=
  ((Verdict.ofLamp (if countsAgree unique quantity then .pass else .fail)).note
    "uniqueWaferCount" (.float unique)).note
    "waferQty" (.float quantity)

/-- The outcome for the counts of a lot, or for a lot without counts. -/
def outcome (input : CheckInput) : Option WaferCounts → CheckOutcome
  | none =>
      match EmptyPolicy.ofRule input.rule .fail with
      | .fail => .error (.missingRecord "wafer condition" input.runcard.id)
      | policy => .ok (policy.verdict "wafer condition")
  | some counts =>
      match count "uniqueWaferCount" counts.unique, count "waferQty" counts.quantity with
      | .error e, _ => .error e
      | .ok _, .error e => .error e
      | .ok unique, .ok quantity => .ok (compare unique quantity)

def check : Check where
  needsSettings := false
  run input := Check.lookUp (.wafer input.runcard.id) (outcome input)

end WaferCondition
end RuncardReview
