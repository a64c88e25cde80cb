import RuncardReview.Proofs.GroupMatching

/-!
# The two forms of an expansion

The keys of an expansion are matched against groups, and its demands tool by tool are
held against single chambers.  The two agree on every or-set that names a chamber.  They
part where a bracket names none: such an or-set asks for nothing, so it accepts every
chamber, and it gives no key.

**Results.**
* `demandsOn?_eq_some_iff`: the demands on a tool.
* `accepts_iff`: what it takes for an or-set to accept a chamber.
* `meets_iff_accepts`: matching by keys, in terms of the demands.
* `chamberless_bracket_parts_forms`: a bracket without chambers.
-/

namespace RuncardReview

namespace Recipe

theorem accepts_iff {set : OrSet} {chamber : String} :
    accepts set chamber = true ↔ set = [] ∨ "%%" ∈ set ∨ chamber ∈ set := by
  simp only [accepts, Bool.or_eq_true, List.isEmpty_iff, List.any_eq_true, decide_eq_true_eq]
  refine or_congr_right ?_
  constructor
  · rintro ⟨x, hx, rfl | rfl⟩
    · exact Or.inl hx
    · exact Or.inr hx
  · rintro (h | h)
    · exact ⟨_, h, Or.inl rfl⟩
    · exact ⟨_, h, Or.inr rfl⟩

end Recipe

namespace Expansion

variable {e : Expansion}

theorem demandsOn?_eq_some_iff {tools : List String} {tool : String}
    {sets : List Recipe.OrSet} :
    e.demandsOn? tools tool = some sets ↔ tool ∈ tools ∧ e.demands = sets := by
  rw [demandsOn?, Option.map_eq_some_iff]
  constructor
  · rintro ⟨p, found, rfl⟩
    obtain ⟨t, ht, rfl⟩ := List.mem_map.mp (List.mem_of_find?_eq_some found)
    obtain rfl : t = tool := by simpa using List.find?_some found
    exact ⟨Distinct.mem_firsts.mp ht, rfl⟩
  · rintro ⟨member, rfl⟩
    cases found : (e.perTool tools).find? fun p => p.1 = tool with
    | none =>
        have listed : (tool, e.demands) ∈ e.perTool tools :=
          List.mem_map.mpr ⟨tool, Distinct.mem_firsts.mpr member, rfl⟩
        simpa using List.find?_eq_none.mp found _ listed
    | some p =>
        obtain ⟨t, _, rfl⟩ := List.mem_map.mp (List.mem_of_find?_eq_some found)
        exact ⟨_, rfl, rfl⟩

/-- With a bracket the demands are the or-sets as they stand. -/
theorem demands_of_constrained (bracketed : e.isUnconstrained = false) :
    e.demands = e.orSets := by
  simp [demands, bracketed]

end Expansion

namespace Group

theorem takes_iff_accepts {sets : List Recipe.OrSet} {chamber : String} (some : sets ≠ [])
    (narrow : chamber ≠ "") :
    Takes sets chamber ↔ ∃ set ∈ sets, set ≠ [] ∧ Recipe.accepts set chamber = true := by
  rw [Takes, if_neg some]
  refine exists_congr fun set => and_congr_right fun _ => and_congr_right fun names => ?_
  rw [Recipe.accepts_iff, or_iff_right narrow, or_iff_right names]

/-- A group with one chamber of one tool meets the keys exactly if some demand on the tool
that names chambers accepts this one.  Besides, every chamber is accepted where a bracket
names none. -/
theorem meets_iff_accepts (recipe : String) (tools : List String) (tool chamber name : String)
    (rules : List Rule) (bracketed : (Expansion.ofRecipe recipe).isUnconstrained = false)
    (plain : ∀ t ∈ tools, '#' ∉ t.toList) (narrow : chamber ≠ "") :
    let e := Expansion.ofRecipe recipe
    let g : Group := ⟨name, [⟨tool, chamber⟩], rules⟩
    (g.meetsAny (e.flatten tools) = true ↔
      tool ∈ tools ∧ ∃ sets, e.demandsOn? tools tool = some sets ∧
        ∃ set ∈ sets, set ≠ [] ∧ Recipe.accepts set chamber = true) ∧
      ((tool ∈ tools ∧ ∃ sets, e.demandsOn? tools tool = some sets ∧
          ∃ set ∈ sets, Recipe.accepts set chamber = true) ↔
        g.meetsAny (e.flatten tools) = true ∨ tool ∈ tools ∧ [] ∈ e.orSets) := by
  intro e g
  have some : e.orSets ≠ [] := by simpa [Expansion.isUnconstrained] using bracketed
  have demands : e.demands = e.orSets := Expansion.demands_of_constrained bracketed
  have meets : g.meetsAny (e.flatten tools) = true ↔
      tool ∈ tools ∧ ∃ set ∈ e.orSets, set ≠ [] ∧ Recipe.accepts set chamber = true := by
    rw [meetsAny_flatten plain, Offers, ← takes_iff_accepts some narrow]
    simp [g]
  simp only [Expansion.demandsOn?_eq_some_iff, demands, meets]
  constructor
  · constructor
    · rintro ⟨asked, set, member, accepted⟩
      exact ⟨asked, _, ⟨asked, rfl⟩, set, member, accepted⟩
    · rintro ⟨asked, _, ⟨-, rfl⟩, set, member, accepted⟩
      exact ⟨asked, set, member, accepted⟩
  · constructor
    · rintro ⟨asked, _, ⟨-, rfl⟩, set, member, accepted⟩
      by_cases none : set = []
      · exact Or.inr ⟨asked, none ▸ member⟩
      · exact Or.inl ⟨asked, set, member, none, accepted⟩
    · rintro (⟨asked, set, member, -, accepted⟩ | ⟨asked, member⟩)
      · exact ⟨asked, _, ⟨asked, rfl⟩, set, member, accepted⟩
      · exact ⟨asked, _, ⟨asked, rfl⟩, [], member, rfl⟩

/-- A group in one chamber is met under two brackets, of which the second names none. -/
theorem meets_iff_accepts_of_two_brackets :
    let e := Expansion.ofRecipe "R\x7bcEF\x7d\x7bc()\x7d"
    let g : Group := ⟨"G", [⟨"T1", "F"⟩], []⟩
    e.isUnconstrained = false ∧ (∀ t ∈ ["T2", "T1"], '#' ∉ t.toList) ∧ "F" ≠ "" ∧
      g.meetsAny (e.flatten ["T2", "T1"]) = true ∧
      ∃ sets, e.demandsOn? ["T2", "T1"] "T1" = some sets ∧
        ∃ set ∈ sets, set ≠ [] ∧ Recipe.accepts set "F" = true := by
  intro e g
  have bracketed : e.isUnconstrained = false := by decide +kernel
  have plain : ∀ t ∈ ["T2", "T1"], '#' ∉ t.toList := by decide
  have narrow : "F" ≠ "" := by decide
  have meets : g.meetsAny (e.flatten ["T2", "T1"]) = true := by decide +kernel
  have forms := meets_iff_accepts "R\x7bcEF\x7d\x7bc()\x7d" ["T2", "T1"] "T1" "F" "G" []
    bracketed plain narrow
  exact ⟨bracketed, plain, narrow, meets, (forms.1.mp meets).2⟩

/-- The demand of a bracket without chambers accepts a chamber whose group meets no key. -/
theorem chamberless_bracket_parts_forms :
    let e := Expansion.ofRecipe "R\x7bc()\x7d"
    let g : Group := ⟨"G", [⟨"T1", "E"⟩], []⟩
    e.isUnconstrained = false ∧ (∀ t ∈ ["T1"], '#' ∉ t.toList) ∧ "E" ≠ "" ∧
      ¬(g.meetsAny (e.flatten ["T1"]) = true ↔
        "T1" ∈ ["T1"] ∧ ∃ sets, e.demandsOn? ["T1"] "T1" = some sets ∧
          ∃ set ∈ sets, Recipe.accepts set "E" = true) := by
  intro e g
  refine ⟨by decide +kernel, by decide, by decide, fun agree => ?_⟩
  have unmet : g.meetsAny (e.flatten ["T1"]) = false := by decide +kernel
  have demands : e.demandsOn? ["T1"] "T1" = some [[]] := by decide +kernel
  have meets := agree.mpr ⟨by decide, _, demands, [], by decide, rfl⟩
  rw [unmet] at meets
  cases meets

end Group
end RuncardReview
