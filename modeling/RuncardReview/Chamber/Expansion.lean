import RuncardReview.Chamber.Recipe
import RuncardReview.Distinct

/-!
# Expansion of tools by chambers

Under a recipe, the tools of a condition are spelled out chamber by chamber.
The flat form lists keys `tool#chamber` for matching against groups; the form
per tool keeps the or-sets apart, since a tool must satisfy every one of them.
-/

namespace RuncardReview

/-- The or-sets of a recipe id, one for each bracket. -/
structure Expansion where
  orSets : List Recipe.OrSet
  deriving DecidableEq

namespace Expansion

/-- The expansion that a recipe id asks for. -/
def ofRecipe (recipe : String) : Expansion :=
  ⟨Recipe.orSets recipe⟩

def isUnconstrained (e : Expansion) : Bool :=
  e.orSets.isEmpty

def key (tool chamber : String) : String :=
  tool ++ "#" ++ chamber

/-- The keys: bracket by bracket, chamber by chamber, tool by tool.  Without a
bracket the tools stand as they are. -/
def flatten (e : Expansion) (tools : List String) : List String :=
  if e.isUnconstrained then tools
  else e.orSets.flatMap fun chambers =>
    chambers.flatMap fun chamber => tools.map fun tool => key tool chamber

theorem flatten_eq_self {e : Expansion} (none : e.orSets = []) (tools : List String) :
    e.flatten tools = tools := by
  simp [flatten, isUnconstrained, none]

theorem mem_flatten_iff {e : Expansion} (some : e.orSets ≠ []) {tools : List String}
    {k : String} :
    k ∈ e.flatten tools ↔
      ∃ set ∈ e.orSets, ∃ chamber ∈ set, ∃ tool ∈ tools, key tool chamber = k := by
  simp [flatten, isUnconstrained, some]

/-- The or-sets that every tool must satisfy.  Without a bracket there is one,
which asks for nothing. -/
def demands (e : Expansion) : List Recipe.OrSet :=
  if e.isUnconstrained then [[]] else e.orSets

/-- The demands tool by tool, in order of first appearance. -/
def perTool (e : Expansion) (tools : List String) : List (String × List Recipe.OrSet) :=
  (Distinct.firsts tools).map fun tool => (tool, e.demands)

/-- The demands on one tool, if it is among the tools. -/
def demandsOn? (e : Expansion) (tools : List String) (tool : String) :
    Option (List Recipe.OrSet) :=
  ((e.perTool tools).find? fun p => p.1 = tool).map Prod.snd

end Expansion
end RuncardReview
