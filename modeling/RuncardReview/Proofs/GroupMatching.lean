import RuncardReview.Matching
import RuncardReview.Proofs.RecipeBrackets
import RuncardReview.Chamber.Expansion
import RuncardReview.Runcard

/-!
# Which groups a condition meets

The tools of a condition are written as keys `tool#chamber`, and each key is taken apart
again to be compared with the tool entries of the groups.  A tool id without `#` comes
out of its key as it went in, whatever its chamber is called.  So the matched groups can
be said without keys: by the tools of the condition and the or-sets of its recipe.

**Results.**
* `splitKey_key`, `splitKey_plain`: a key falls apart into its tool and its chamber.
* `meetsAny_flatten`: what it takes for a group to meet the keys of an expansion.
* `matched_eq_filter`: the matched groups of a condition.
-/

namespace RuncardReview

open Text

section Keys

variable {tool : String}

theorem splitKey_key (plain : '#' ∉ tool.toList) (chamber : String) :
    splitKey (Expansion.key tool chamber) = (tool, chamber) := by
  have fresh : ∀ c ∈ tool.toList, c ≠ '#' := fun c hc e => plain (e ▸ hc)
  have written : (Expansion.key tool chamber).toList =
      tool.toList ++ '#' :: chamber.toList := by
    simp [Expansion.key]
  rw [splitKey, written, cutAt_found fresh]
  simp

theorem splitKey_plain (plain : '#' ∉ tool.toList) :
    splitKey tool = (tool, "") := by
  have fresh : ∀ c ∈ tool.toList, c ≠ '#' := fun c hc e => plain (e ▸ hc)
  rw [splitKey, cutAt_none fresh]

theorem meets_key (plain : '#' ∉ tool.toList) (t : Tool) (chamber : String) :
    t.meets (Expansion.key tool chamber) = true ↔
      tool = t.id ∧ (t.chamber = "" ∨ chamber = Recipe.wildcard ∨ chamber = t.chamber) := by
  simp [Tool.meets, splitKey_key plain, or_assoc]

/-- A key without a chamber meets the entries that are open to all chambers. -/
theorem meets_plain (plain : '#' ∉ tool.toList) (t : Tool) :
    t.meets tool = true ↔ tool = t.id ∧ t.chamber = "" := by
  have named : ("" : String) ≠ Recipe.wildcard := by decide
  simp [Tool.meets, splitKey_plain plain, named, eq_comm (a := "")]

end Keys

namespace Group

/-- The chamber of a tool entry, empty for all, goes with some or-set of a recipe.
Without or-sets only an entry for all chambers does. -/
def Takes (sets : List Recipe.OrSet) (chamber : String) : Prop :=
  if sets = [] then chamber = ""
  else ∃ set ∈ sets, set ≠ [] ∧ (chamber = "" ∨ "%%" ∈ set ∨ chamber ∈ set)

/-- One of the tools stands in the group, with a chamber that goes with the or-sets. -/
def Offers (tools : List String) (sets : List Recipe.OrSet) (g : Group) : Prop :=
  ∃ t ∈ g.tools, t.id ∈ tools ∧ Takes sets t.chamber

instance (sets : List Recipe.OrSet) (chamber : String) : Decidable (Takes sets chamber) :=
  inferInstanceAs (Decidable (if sets = [] then chamber = ""
    else ∃ set ∈ sets, set ≠ [] ∧ (chamber = "" ∨ "%%" ∈ set ∨ chamber ∈ set)))

instance (tools : List String) (sets : List Recipe.OrSet) (g : Group) :
    Decidable (Offers tools sets g) :=
  inferInstanceAs (Decidable (∃ t ∈ g.tools, t.id ∈ tools ∧ Takes sets t.chamber))

variable {tools : List String}

/-- An or-set has a chamber that meets an entry exactly if it has a chamber at all and
the entry is open, or it has the wildcard or the chamber of the entry. -/
theorem exists_meeting_chamber {set : Recipe.OrSet} {chamber : String} :
    (∃ c ∈ set, chamber = "" ∨ c = Recipe.wildcard ∨ c = chamber) ↔
      set ≠ [] ∧ (chamber = "" ∨ "%%" ∈ set ∨ chamber ∈ set) := by
  constructor
  · rintro ⟨c, hc, anyway | wild | same⟩
    · exact ⟨List.ne_nil_of_mem hc, Or.inl anyway⟩
    · have held : Recipe.wildcard ∈ set := wild ▸ hc
      exact ⟨List.ne_nil_of_mem hc, Or.inr (Or.inl held)⟩
    · exact ⟨List.ne_nil_of_mem hc, Or.inr (Or.inr (same ▸ hc))⟩
  · rintro ⟨some, anyway | wild | same⟩
    · obtain ⟨c, hc⟩ := List.exists_mem_of_ne_nil set some
      exact ⟨c, hc, Or.inl anyway⟩
    · exact ⟨_, wild, Or.inr (Or.inl rfl)⟩
    · exact ⟨_, same, Or.inr (Or.inr rfl)⟩

theorem meetsAny_flatten (plain : ∀ tool ∈ tools, '#' ∉ tool.toList) (e : Expansion)
    (g : Group) :
    g.meetsAny (e.flatten tools) = true ↔ Offers tools e.orSets g := by
  simp only [meetsAny, List.any_eq_true, Offers, Takes]
  by_cases none : e.orSets = []
  · simp only [Expansion.flatten_eq_self none, if_pos none]
    constructor
    · rintro ⟨tool, asked, t, ht, meets⟩
      obtain ⟨rfl, takes⟩ := (meets_plain (plain tool asked) t).mp meets
      exact ⟨t, ht, asked, takes⟩
    · rintro ⟨t, ht, asked, takes⟩
      exact ⟨t.id, asked, t, ht, (meets_plain (plain _ asked) t).mpr ⟨rfl, takes⟩⟩
  · simp only [Expansion.mem_flatten_iff none, if_neg none, ← exists_meeting_chamber]
    constructor
    · rintro ⟨_, ⟨set, hSet, chamber, held, tool, asked, rfl⟩, t, ht, meets⟩
      obtain ⟨rfl, takes⟩ := (meets_key (plain tool asked) t chamber).mp meets
      exact ⟨t, ht, asked, set, hSet, chamber, held, takes⟩
    · rintro ⟨t, ht, asked, set, hSet, chamber, held, takes⟩
      exact ⟨_, ⟨set, hSet, chamber, held, t.id, asked, rfl⟩, t, ht,
        (meets_key (plain _ asked) t chamber).mpr ⟨rfl, takes⟩⟩

/-- The matched groups of a condition are those that offer one of its tools in a chamber
that its recipe asks for, in catalog order and with all their rules. -/
theorem matched_eq_filter (c : Condition) (groups : List Group)
    (plain : ∀ tool ∈ c.toolIds, '#' ∉ tool.toList) :
    Recipe.Asks c.recipe (Recipe.orSets c.recipe) ∧
      matched groups ((Expansion.ofRecipe c.recipe).flatten c.toolIds) =
        (groups.filter fun g => Offers c.toolIds (Recipe.orSets c.recipe) g).map
          fun g => ⟨g.name, g.rules⟩ := by
  refine ⟨Recipe.asks_orSets c.recipe, ?_⟩
  rw [matched]
  congr 1
  refine List.filter_congr fun g _ => ?_
  rw [Bool.eq_iff_iff, meetsAny_flatten plain, decide_eq_true_iff]
  rfl

/-- A chamber may hold `#`, and an or-set without chambers meets nothing. -/
theorem matched_of_hash_chamber :
    let c : Condition := ⟨"C1", " T1 ,, T2", "R{cE}-{c( PM#1 ;)}-{c()}"⟩
    let groups : List Group :=
      [⟨"open", [Tool.anyChamber "T2"], []⟩, ⟨"named", [⟨"T9", "E"⟩, ⟨"T1", "PM#1"⟩], []⟩,
        ⟨"other", [⟨"T1", "F"⟩], []⟩]
    (∀ tool ∈ c.toolIds, '#' ∉ tool.toList) ∧
      (matched groups ((Expansion.ofRecipe c.recipe).flatten c.toolIds)).map GroupRules.group =
        ["open", "named"] := by
  intro c groups
  have plain : ∀ tool ∈ c.toolIds, '#' ∉ tool.toList := by decide +kernel
  refine ⟨plain, ?_⟩
  rw [(matched_eq_filter c groups plain).2]
  decide +kernel

end Group
end RuncardReview
