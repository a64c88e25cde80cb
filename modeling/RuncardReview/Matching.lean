import RuncardReview.Chamber.Recipe
import RuncardReview.Group

/-!
# Matching keys against groups

A key `tool#chamber` asks for one chamber of a tool.  It meets a tool entry of
the same id when the entry is open to all chambers, when the key asks for any
chamber, or when the two chambers are equal.
-/

namespace RuncardReview

open Text

/-- A key taken apart at the first `#`.  Without one the chamber is empty. -/
def splitKey (key : String) : String × String :=
  match cutAt '#' key.toList with
  | some (tool, chamber) => (String.ofList tool, String.ofList chamber)
  | none => (key, "")

namespace Tool

def meets (t : Tool) (key : String) : Bool :=
  let (tool, chamber) := splitKey key
  tool = t.id && (t.chamber = "" || chamber = Recipe.wildcard || chamber = t.chamber)

end Tool

/-- The rules that a matched group contributes. -/
structure GroupRules where
  group : String
  rules : List Rule

namespace Group

/-- Whether any of the keys meets any of the tools. -/
def meetsAny (g : Group) (keys : List String) : Bool :=
  keys.any fun key => g.tools.any fun t => t.meets key

/-- The matched groups with all their rules, in catalog order. -/
def matched (groups : List Group) (keys : List String) : List GroupRules :=
  (groups.filter fun g => g.meetsAny keys).map fun g => ⟨g.name, g.rules⟩

end Group
end RuncardReview
