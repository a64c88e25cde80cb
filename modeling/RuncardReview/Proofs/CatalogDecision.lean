import Mathlib.Data.List.Nodup
import RuncardReview.Proofs.CatalogAcceptance

/-!
# What a list of groups is taken for

A list of groups is refused for the first group whose name has occurred before it, else for
the first group without tools, and else it is a catalog of just these groups.  The two scans
stop at the first place with a property, which for the first of them depends on what precedes
the place.

**Results.**
* `Earliest`, `earliest_cons`: the first place with a property, read from the front.
* `firstRepeat?_eq_some_iff`, `firstEmpty?_eq_some_iff`: where the two scans stop.
* `group?_eq_some_iff`, `group?_eq_none_iff`: what is found in a catalog by name.
* `ofGroups_eq_iff`: the one answer for every list of groups.
-/

namespace RuncardReview

section Earliest

variable {α : Type} {P Q : List α → α → Prop} {a b : α} {l : List α}

/-- `a` stands in `l` where it has the property, and no earlier place has it.  The property
may look at what precedes the place. -/
def Earliest (P : List α → α → Prop) (l : List α) (a : α) : Prop :=
  ∃ front back, l = front ++ a :: back ∧ P front a ∧
    ∀ before b between, front = before ++ b :: between → ¬P before b

@[simp] theorem not_earliest_nil : ¬Earliest P [] a := by
  rintro ⟨front, back, split, -⟩
  simp at split

theorem earliest_cons :
    Earliest P (a :: l) b ↔
      (P [] a ∧ b = a) ∨ (¬P [] a ∧ Earliest (fun front c => P (a :: front) c) l b) := by
  constructor
  · rintro ⟨front, back, split, here, earlier⟩
    cases front with
    | nil =>
        obtain ⟨rfl, rfl⟩ := List.cons.inj split
        exact Or.inl ⟨here, rfl⟩
    | cons c front =>
        obtain ⟨rfl, rfl⟩ := List.cons.inj split
        refine Or.inr ⟨earlier [] a front rfl, front, back, rfl, here, ?_⟩
        rintro before c between rfl
        exact earlier (a :: before) c between rfl
  · rintro (⟨here, rfl⟩ | ⟨first, front, back, rfl, here, earlier⟩)
    · exact ⟨[], l, rfl, here, by simp⟩
    · refine ⟨a :: front, back, rfl, here, fun before c between split => ?_⟩
      cases before with
      | nil =>
          obtain ⟨rfl, -⟩ := List.cons.inj split
          exact first
      | cons d before =>
          obtain ⟨rfl, rest⟩ := List.cons.inj split
          exact earlier before c between rest

end Earliest

namespace Catalog

variable {groups : List Group} {g : Group} {name : String}

/-! ## The two scans -/

/-- A group before this one has its name. -/
def Repeats (front : List Group) (g : Group) : Prop :=
  ∃ h ∈ front, h.name = g.name

theorem repeats_cons {front : List Group} {h : Group} :
    Repeats (h :: front) g ↔ g.name = h.name ∨ Repeats front g := by
  simp [Repeats, eq_comm]

/-- A group lists no tools, wherever it stands. -/
def Bare (_ : List Group) (g : Group) : Prop :=
  g.tools = []

/-- The scan for a repeated name, where the names in `seen` have gone before. -/
theorem firstRepeat?_seen_iff {seen : List String} :
    firstRepeat? seen (groups.map Group.name) = some name ↔
      ∃ g, Earliest (fun front g => g.name ∈ seen ∨ Repeats front g) groups g ∧
        g.name = name := by
  induction groups generalizing seen with
  | nil => simp [firstRepeat?]
  | cons h groups ih =>
      have nothing : ¬Repeats [] h := by simp [Repeats]
      rw [List.map_cons, firstRepeat?]
      by_cases old : h.name ∈ seen
      · rw [if_pos old, Option.some_inj]
        constructor
        · intro same
          exact ⟨h, earliest_cons.mpr (Or.inl ⟨Or.inl old, rfl⟩), same⟩
        · rintro ⟨g, first, same⟩
          rcases earliest_cons.mp first with ⟨-, rfl⟩ | ⟨new, -⟩
          · exact same
          · exact absurd (Or.inl old) new
      · -- Behind `h` its name is one of those seen, or that of a group before.
        have behind :
            (fun (front : List Group) (g : Group) => g.name ∈ h.name :: seen ∨ Repeats front g) =
              fun front g => g.name ∈ seen ∨ Repeats (h :: front) g := by
          funext front g
          rw [List.mem_cons, repeats_cons, eq_iff_iff]
          tauto
        have new : ¬(h.name ∈ seen ∨ Repeats [] h) := not_or.mpr ⟨old, nothing⟩
        rw [if_neg old, ih, behind]
        refine exists_congr fun g => and_congr_left fun _ => ?_
        rw [earliest_cons]
        simp only [new, false_and, not_false_eq_true, true_and, false_or]

theorem firstRepeat?_eq_some_iff :
    firstRepeat? [] (groups.map Group.name) = some name ↔
      ∃ g, Earliest Repeats groups g ∧ g.name = name := by
  rw [firstRepeat?_seen_iff]
  simp only [List.not_mem_nil, false_or]

theorem firstEmpty?_eq_some_iff :
    firstEmpty? groups = some g ↔ Earliest Bare groups g := by
  induction groups with
  | nil => simp [firstEmpty?]
  | cons h groups ih =>
      rw [earliest_cons, firstEmpty?, List.find?_cons]
      cases tools : h.tools with
      | nil => simp [Bare, tools, eq_comm]
      | cons t ts =>
          have equipped : ¬Bare [] h := by simp [Bare, tools]
          simp only [equipped, false_and, not_false_eq_true, true_and, false_or]
          exact ih

/-! ## Groups by name -/

variable {c : Catalog}

/-- A name finds the one group that has it. -/
theorem group?_eq_some_iff : c.group? name = some g ↔ g ∈ c.groups ∧ g.name = name := by
  constructor
  · intro found
    exact ⟨List.mem_of_find?_eq_some found, by simpa using List.find?_some found⟩
  · rintro ⟨member, named⟩
    obtain ⟨h, found⟩ : ∃ h, c.group? name = some h := by
      refine Option.isSome_iff_exists.mp (List.find?_isSome.mpr ⟨g, member, ?_⟩)
      simpa using named
    have alike : h.name = g.name := by
      rw [named]
      simpa using List.find?_some found
    have same : h = g :=
      List.inj_on_of_nodup_map c.distinct (List.mem_of_find?_eq_some found) member alike
    rw [found, same]

theorem group?_eq_none_iff : c.group? name = none ↔ ∀ g ∈ c.groups, g.name ≠ name := by
  rw [group?, List.find?_eq_none]
  simp

/-! ## The answer -/

/-- What a list of groups is refused as, or the catalog it is. -/
inductive Decides (groups : List Group) : Except CatalogError Catalog → Prop
  /-- Some name repeats. -/
  | repeated {g : Group} (first : Earliest Repeats groups g) :
      Decides groups (.error (.duplicateGroup g.name))
  /-- No name repeats, but tools are missing. -/
  | bare {g : Group} (distinct : (groups.map Group.name).Nodup)
      (first : Earliest Bare groups g) :
      Decides groups (.error (.emptyGroup g.name))
  /-- Nothing is wrong: a name finds the group that has it, and no other name finds any. -/
  | accepted {c : Catalog} (distinct : (groups.map Group.name).Nodup)
      (equipped : ∀ g ∈ groups, g.tools ≠ []) (kept : c.groups = groups)
      (finds : ∀ name g, c.group? name = some g ↔ g ∈ groups ∧ g.name = name)
      (misses : ∀ name, c.group? name = none ↔ ∀ g ∈ groups, g.name ≠ name) :
      Decides groups (.ok c)

theorem ofGroups_of_repeat (found : firstRepeat? [] (groups.map Group.name) = some name) :
    ofGroups groups = .error (.duplicateGroup name) := by
  unfold ofGroups
  split
  · rename_i m first
    rw [found] at first
    cases first
    rfl
  · rename_i distinct
    rw [found] at distinct
    cases distinct

theorem ofGroups_of_empty (distinct : firstRepeat? [] (groups.map Group.name) = none)
    (found : firstEmpty? groups = some g) :
    ofGroups groups = .error (.emptyGroup g.name) := by
  unfold ofGroups
  split
  · rename_i m first
    rw [distinct] at first
    cases first
  · split
    · rename_i h first
      rw [found] at first
      cases first
      rfl
    · rename_i equipped
      rw [found] at equipped
      cases equipped

/-- Every list of groups gets an answer that is right for it. -/
theorem decides_ofGroups (groups : List Group) : Decides groups (ofGroups groups) := by
  cases names : firstRepeat? [] (groups.map Group.name) with
  | some name =>
      obtain ⟨g, first, rfl⟩ := firstRepeat?_eq_some_iff.mp names
      rw [ofGroups_of_repeat names]
      exact .repeated first
  | none =>
      have distinct := (nodup_of_firstRepeat? _ _ names).1
      cases tools : firstEmpty? groups with
      | some g =>
          rw [ofGroups_of_empty names tools]
          exact .bare distinct (firstEmpty?_eq_some_iff.mp tools)
      | none =>
          have equipped := equipped_of_firstEmpty? tools
          obtain ⟨c, valid⟩ := exists_ofGroups_iff.mpr ⟨distinct, equipped⟩
          obtain rfl := groups_of_ofGroups valid
          rw [valid]
          exact .accepted distinct equipped rfl (fun _ _ => group?_eq_some_iff)
            fun _ => group?_eq_none_iff

/-- The answer for a list of groups is the one that is right for it. -/
theorem ofGroups_eq_iff {answer : Except CatalogError Catalog} :
    ofGroups groups = answer ↔ Decides groups answer := by
  constructor
  · rintro rfl
    exact decides_ofGroups groups
  · intro right
    cases right with
    | repeated first =>
        exact ofGroups_of_repeat (firstRepeat?_eq_some_iff.mpr ⟨_, first, rfl⟩)
    | bare distinct first =>
        exact ofGroups_of_empty (firstRepeat?_eq_none distinct (by simp))
          (firstEmpty?_eq_some_iff.mpr first)
    | @accepted c distinct equipped kept =>
        obtain ⟨d, valid⟩ := exists_ofGroups_iff.mpr ⟨distinct, equipped⟩
        have same : d.groups = c.groups := (groups_of_ofGroups valid).trans kept.symm
        obtain ⟨dGroups, _, _⟩ := d
        obtain rfl : dGroups = c.groups := same
        exact valid

end Catalog
end RuncardReview
