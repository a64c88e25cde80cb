import RuncardReview.Group
import RuncardReview.Json.Reader
import RuncardReview.Json.Values
import RuncardReview.Lookup
import RuncardReview.Runcard

/-!
# The data model in JSON

Groups and rules, runcards and conditions, results and records as objects whose
fields stand in a fixed order.  In reading, the fields may come in any order and
others are ignored; fields that may be missing have a default.
-/

namespace RuncardReview

open Json

namespace Tool

def toJson (t : Tool) : Json :=
  .object [("toolId", .text t.id), ("chamberId", .text t.chamber)]

/-- Reads a tool entry.  Without a chamber it is open to all. -/
def ofJson? (j : Json) : Option Tool :=
  match fields? ["toolId", "chamberId"] j with
  | some [id, chamber] => do
      return ⟨← required text? id, ← defaulted "" text? chamber⟩
  | _ => none

end Tool

namespace Rule

def toJson (r : Rule) : Json :=
  .object [("ruleType", .text r.ruleType), ("lotType", .array (r.lotTypes.map .text)),
    ("settings", ofOption Entries.toJson r.settings)]

def ofJson? (j : Json) : Option Rule :=
  match fields? ["ruleType", "lotType", "settings"] j with
  | some [ruleType, lots, settings] => do
      return ⟨← required text? ruleType, ← defaulted [] (list? text?) lots,
        ← defaulted none (nullable Entries.ofJson?) settings⟩
  | _ => none

end Rule

namespace Group

def toJson (g : Group) : Json :=
  .object [("groupName", .text g.name), ("tools", .array (g.tools.map Tool.toJson)),
    ("rules", .array (g.rules.map Rule.toJson))]

def ofJson? (j : Json) : Option Group :=
  match fields? ["groupName", "tools", "rules"] j with
  | some [name, tools, rules] => do
      return ⟨← required text? name, ← required (list? Tool.ofJson?) tools,
        ← required (list? Rule.ofJson?) rules⟩
  | _ => none

end Group

namespace Timestamp

def ofJson? : Json → Option Timestamp
  | .text s => read s.toList
  | _ => none

def toJson (t : Timestamp) : Json :=
  .text t.text

end Timestamp

namespace Runcard

def fieldNames : List String :=
  ["runcardId", "issuingEngineer", "lotId", "partId", "status", "purpose",
    "numberOfPieces", "holdAtOperNo", "issuedAt"]

def toJson (r : Runcard) : Json :=
  .object (fieldNames.zip
    [.text r.id, ofOption .text r.engineer, ofOption .text r.lot, ofOption .text r.part,
      ofOption .text r.status, ofOption .text r.purpose,
      ofOption (fun n => .int n.toNat) r.pieces, ofOption .text r.holdOperation,
      ofOption Timestamp.toJson r.issued])

/-- Reads a text that may be missing or `null`. -/
def optionalText (field : Option Json) : Option (Option String) :=
  defaulted none (nullable text?) field

/-- Reads a runcard, of which every field may be missing. -/
def ofJson? (j : Json) : Option Runcard :=
  match fields? fieldNames j with
  | some [id, engineer, lot, part, status, purpose, pieces, holdOperation, issued] => do
      return {
        id := ← defaulted "" text? id
        engineer := ← optionalText engineer
        lot := ← optionalText lot
        part := ← optionalText part
        status := ← optionalText status
        purpose := ← optionalText purpose
        pieces := ← defaulted none (nullable word?) pieces
        holdOperation := ← optionalText holdOperation
        issued := ← defaulted none (nullable Timestamp.ofJson?) issued }
  | _ => none

end Runcard

namespace Condition

def toJson (c : Condition) : Json :=
  .object [("condition", .text c.label), ("toolIdList", .text c.toolList),
    ("recipeId", .text c.recipe)]

def ofJson? (j : Json) : Option Condition :=
  match fields? ["condition", "toolIdList", "recipeId"] j with
  | some [label, toolList, recipe] => do
      return ⟨← required text? label, ← required text? toolList, ← required text? recipe⟩
  | _ => none

end Condition

namespace Result

def toJson (r : Result) : Json :=
  .object [("ruleType", .text r.ruleType), ("result", r.lamp.toJson),
    ("detail", Entries.toJson r.detail)]

def ofJson? (j : Json) : Option Result :=
  match fields? ["ruleType", "result", "detail"] j with
  | some [ruleType, lamp, detail] => do
      return ⟨← required text? ruleType, ← required Lamp.ofJson? lamp,
        ← defaulted Entries.empty Entries.ofJson? detail⟩
  | _ => none

end Result

namespace ConditionResult

def toJson (c : ConditionResult) : Json :=
  .object [("condition", .text c.condition),
    ("toolChambers", .array (c.toolChambers.map .text)),
    ("results", .array (c.results.map Result.toJson))]

def ofJson? (j : Json) : Option ConditionResult :=
  match fields? ["condition", "toolChambers", "results"] j with
  | some [condition, toolChambers, results] => do
      return ⟨← required text? condition, ← required (list? text?) toolChambers,
        ← required (list? Result.ofJson?) results⟩
  | _ => none

end ConditionResult

namespace RuncardResult

def toJson (r : RuncardResult) : Json :=
  .object [("runcardId", .text r.runcard),
    ("conditions", .array (r.conditions.map ConditionResult.toJson))]

def ofJson? (j : Json) : Option RuncardResult :=
  match fields? ["runcardId", "conditions"] j with
  | some [runcard, conditions] => do
      return ⟨← required text? runcard, ← required (list? ConditionResult.ofJson?) conditions⟩
  | _ => none

end RuncardResult

namespace ProcessRecord

def toJson (r : ProcessRecord) : Json :=
  .object [("step", .int r.step.toNat), ("recipeId", .text r.recipe), ("toolId", .text r.tool),
    ("eqpCategory", .text r.category)]

def ofJson? (j : Json) : Option ProcessRecord :=
  match fields? ["step", "recipeId", "toolId", "eqpCategory"] j with
  | some [step, recipe, tool, category] => do
      return ⟨← required word? step, ← required text? recipe, ← required text? tool,
        ← required text? category⟩
  | _ => none

end ProcessRecord

namespace InhibitionRecord

def toJson (r : InhibitionRecord) : Json :=
  .object [("toolId", .text r.tool), ("chamberId", .text r.chamber), ("flag", .text r.flag)]

def ofJson? (j : Json) : Option InhibitionRecord :=
  match fields? ["toolId", "chamberId", "flag"] j with
  | some [tool, chamber, flag] => do
      return ⟨← required text? tool, ← required text? chamber, ← required text? flag⟩
  | _ => none

end InhibitionRecord

namespace WaferCounts

def toJson (c : WaferCounts) : Json :=
  .object [("uniqueWaferCount", .text c.unique), ("waferQty", .text c.quantity)]

def ofJson? (j : Json) : Option WaferCounts :=
  match fields? ["uniqueWaferCount", "waferQty"] j with
  | some [unique, quantity] => do
      return ⟨← required text? unique, ← required text? quantity⟩
  | _ => none

end WaferCounts

namespace ReleaseRecord

def toJson (r : ReleaseRecord) : Json :=
  .object [("toolId", .text r.tool), ("chamberId", .text r.chamber),
    ("released", .bool r.released), ("enabled", .bool r.enabled)]

def ofJson? (j : Json) : Option ReleaseRecord :=
  match fields? ["toolId", "chamberId", "released", "enabled"] j with
  | some [tool, chamber, released, enabled] => do
      return ⟨← required text? tool, ← required text? chamber, ← required bool? released,
        ← required bool? enabled⟩
  | _ => none

end ReleaseRecord

namespace Json

/-- Reads a text as a value of some type and writes it back. -/
def normalText? {α : Type} (ofJson? : Json → Option α) (toJson : α → Json) (text : String) :
    Option String :=
  ((read text).bind ofJson?).map fun a => (toJson a).write

end Json
end RuncardReview
