import RuncardReview.Rule

/-!
# Rule groups

A group names tools and the rules that apply wherever one of them is used.  A
tool entry may be narrowed to one chamber; an empty chamber stands for all.
-/

namespace RuncardReview

/-- A tool, or one chamber of it. -/
structure Tool where
  id : String
  chamber : String
  deriving DecidableEq

namespace Tool

def anyChamber (id : String) : Tool :=
  ⟨id, ""⟩

def display (t : Tool) : String :=
  if t.chamber = "" then t.id else t.id ++ "#" ++ t.chamber

end Tool

/-- Tools and the rules that apply to them. -/
structure Group where
  name : String
  tools : List Tool
  rules : List Rule
  deriving DecidableEq

namespace Group

/-- A group of that name with neither tools nor rules. -/
def ofName (name : String) : Group :=
  ⟨name, [], []⟩

/-- Adds tool entries; one that is there already is not added again. -/
def addTools (g : Group) (tools : List Tool) : Group :=
  { g with tools := Distinct.addAllNew g.tools tools }

def addRules (g : Group) (rules : List Rule) : Group :=
  { g with rules := g.rules ++ rules }

def display (g : Group) : String :=
  "ToolRuleGroup(" ++ g.name ++ ", " ++ Number.countText g.tools.length ++ " tools, "
    ++ Number.countText g.rules.length ++ " rules)"

end Group
end RuncardReview
