import RuncardReview.Proofs.ConsolidationDetail

/-!
# What consolidated results are

The whole of a consolidated result, told from the results that went in without going through
them one by one: its lamp is the greatest of its type, under each key stands what was
contributed last, and the list of groups, if there is one, goes over what would stand there.

**Results.**
* `Distinct.firstSeen_firsts`: what it is to come in order of first appearance.
* `consolidate_exact`: all consolidated results.
-/

namespace RuncardReview

section FirstSeen

variable {α β : Type} {shows : β → α → Prop} {items : List β} {e : β} {x y : α}

/-- Whenever an item shows the second value, an item in front of it has shown the first. -/
def SeenBefore (shows : β → α → Prop) (items : List β) (x y : α) : Prop :=
  ∀ front e back, items = front ++ e :: back → shows e y → ∃ d ∈ front, shows d x

/-- The values that some items show, each once, in the order in which they are first seen. -/
structure FirstSeen (shows : β → α → Prop) (items : List β) (found : List α) : Prop where
  distinct : found.Nodup
  mem : ∀ x, x ∈ found ↔ ∃ e ∈ items, shows e x
  ordered : found.Pairwise (SeenBefore shows items)

theorem seenBefore_of_unseen (unseen : ∀ d ∈ items, ¬shows d y) :
    SeenBefore shows items x y := by
  rintro front d back rfl here
  exact absurd here (unseen d (by simp))

/-- An item at the end shows nothing before a value that has been seen. -/
theorem SeenBefore.concat (before : SeenBefore shows items x y)
    (seen : ∃ d ∈ items, shows d x) :
    SeenBefore shows (items ++ [e]) x y := by
  intro front d back split here
  rcases split_of_concat split with ⟨rfl, -⟩ | ⟨back', rfl, -⟩
  · exact seen
  · exact before front d back' rfl here

/-- Adding what is new at the end keeps the order in which values are first seen. -/
theorem Distinct.firstSeen_firsts [DecidableEq α] (f : β → Option α) (items : List β) :
    FirstSeen (fun e x => f e = some x) items (firsts (items.filterMap f)) := by
  refine ⟨nodup_firsts _, fun x => by simp [mem_firsts], ?_⟩
  induction items using List.reverseRecOn with
  | nil => exact List.Pairwise.nil
  | append_singleton items e ih =>
      have seen : ∀ x, x ∈ firsts (items.filterMap f) ↔ ∃ d ∈ items, f d = some x := by
        simp [mem_firsts]
      have kept : (firsts (items.filterMap f)).Pairwise
          (SeenBefore (fun e x => f e = some x) (items ++ [e])) :=
        ih.imp_of_mem fun hx _ before => before.concat ((seen _).mp hx)
      cases shown : f e with
      | none => simpa [List.filterMap_append, shown] using kept
      | some y =>
          have grown : firsts ((items ++ [e]).filterMap f) =
              addNew (firsts (items.filterMap f)) y := by
            rw [← firsts_concat, List.filterMap_append]
            simp [shown]
          rw [grown]
          refine pairwise_addNew kept fun new x hx => ?_
          have unseen : ∀ d ∈ items, ¬f d = some y := fun d hd here =>
            new ((seen y).mpr ⟨d, hd, here⟩)
          exact (seenBefore_of_unseen unseen).concat ((seen x).mp hx)

/-- The order does not depend on values that are left out. -/
theorem FirstSeen.filter {found : List α} (seen : FirstSeen shows items found) (p : α → Bool) :
    FirstSeen (fun e x => shows e x ∧ p x = true) items (found.filter p) := by
  refine ⟨seen.distinct.filter p, fun x => ?_, ?_⟩
  · simp only [List.mem_filter, seen.mem, ← and_assoc, exists_and_right]
  · refine (seen.ordered.filter p).imp_of_mem fun hx _ before => ?_
    intro front e back split here
    obtain ⟨d, hd, shown⟩ := before front e back split here.1
    exact ⟨d, hd, shown, (List.mem_filter.mp hx).2⟩

end FirstSeen

namespace Consolidation

open Distinct (firsts)

variable {r : Result} {entries : List Result} {m : String} {v : Value}

theorem firstSeen_ruleTypes (entries : List Result) :
    FirstSeen (fun e t => e.ruleType = t) entries
      ((consolidate entries).map Result.ruleType) := by
  have seen := Distinct.firstSeen_firsts (fun e : Result => some e.ruleType) entries
  rw [consolidate_ruleTypes]
  simpa using seen

theorem firstSeen_tags (entries : List Result) (ruleType : String) :
    FirstSeen (fun e g => e.ruleType = ruleType ∧ Tagged e g) entries
      (firsts (tags entries ruleType)) := by
  have seen := Distinct.firstSeen_firsts
    (fun e : Result => if e.ruleType = ruleType then tag? e else none) entries
  rw [tags, List.filterMap_filter]
  simpa [← tag?_eq_some_iff] using seen

theorem tags_eq_nil_iff {ruleType : String} :
    tags entries ruleType = [] ↔
      ∀ e ∈ entries, e.ruleType = ruleType → ∀ g, ¬Tagged e g := by
  rw [List.eq_nil_iff_forall_not_mem]
  simp only [mem_tags]
  constructor
  · exact fun none e he type g tagged => none g ⟨e, he, type, tagged⟩
  · rintro none g ⟨e, he, type, tagged⟩
    exact none e he type g tagged

/-- The detail of a consolidated result. -/
theorem consolidate_detail (member : r ∈ consolidate entries) :
    r.detail =
      if tags entries r.ruleType = [] then (bucketOf entries r.ruleType).detail
      else (bucketOf entries r.ruleType).detail.insert repeatedGroupsKey
        (.texts (firsts (tags entries r.ruleType))) := by
  conv_lhs => rw [eq_finish_of_mem member]
  rw [finish_detail, bucketOf_groups]
  simp only [Distinct.firsts_eq_nil_iff]

theorem get?_of_mem (member : r ∈ consolidate entries)
    (plain : m ≠ repeatedGroupsKey ∨ tags entries r.ruleType = []) :
    r.detail.get? m = (bucketOf entries r.ruleType).detail.get? m := by
  rw [consolidate_detail member]
  split
  · rfl
  · rename_i some
    rw [Entries.get?_insert, if_neg (plain.resolve_right some).symm]

theorem get?_repeatedGroupsKey_of_mem (member : r ∈ consolidate entries)
    (some : tags entries r.ruleType ≠ []) :
    r.detail.get? repeatedGroupsKey = .some (.texts (firsts (tags entries r.ruleType))) := by
  rw [consolidate_detail member, if_neg some, Entries.get?_insert, if_pos rfl]

theorem get?_groupKey_of_mem (member : r ∈ consolidate entries) :
    r.detail.get? groupKey = none := by
  have gathered : (bucketOf entries r.ruleType).detail.get? groupKey = none := by
    refine Option.eq_none_iff_forall_ne_some.mpr fun v stands => ?_
    obtain ⟨-, e, -, -, -, here, -⟩ := get?_bucketOf_iff.mp stands
    exact not_contributes_groupKey here
  rw [get?_of_mem member (Or.inl (by decide)), gathered]

/-- Consolidation gives one result for each rule type, in the order in which the types are
first seen.  Its lamp is the greatest of the type, and it names no group under the key by
which a result names one.  Under any other key stands the value that was contributed last, if
any was, with one exception: if a result of the type names a group, the groups that are named
stand under a key of their own, in the order in which they are first seen. -/
theorem consolidate_exact (entries : List Result) :
    FirstSeen (fun e t => e.ruleType = t) entries ((consolidate entries).map Result.ruleType) ∧
      ∀ r ∈ consolidate entries,
        IsGreatest {a | ∃ e ∈ entries, e.ruleType = r.ruleType ∧ e.lamp = a} r.lamp ∧
        r.detail.get? "group" = none ∧
        (∀ m v, m ≠ "repeatedGroups" ∨
            (∀ e ∈ entries, e.ruleType = r.ruleType → ∀ g, ¬Tagged e g) →
          (r.detail.get? m = some v ↔ LastContribution entries r.ruleType m v)) ∧
        ((∃ e ∈ entries, e.ruleType = r.ruleType ∧ ∃ g, Tagged e g) →
          ∃ gs, FirstSeen (fun e g => e.ruleType = r.ruleType ∧ Tagged e g) entries gs ∧
            r.detail.get? "repeatedGroups" = some (.texts gs)) := by
  refine ⟨firstSeen_ruleTypes entries, fun r member => ⟨consolidate_lamp_isGreatest member,
    get?_groupKey_of_mem member, fun m v plain => ?_, ?_⟩⟩
  · rw [← get?_bucketOf_iff, get?_of_mem member (plain.imp_right tags_eq_nil_iff.mpr)]
  · rintro ⟨e, he, type, g, tagged⟩
    have some : tags entries r.ruleType ≠ [] := fun none =>
      tags_eq_nil_iff.mp none e he type g tagged
    exact ⟨_, firstSeen_tags entries r.ruleType, get?_repeatedGroupsKey_of_mem member some⟩

/-! ## A key that is written twice -/

namespace Collision

/-- Names no group, and has a key that looks as if it came from the group `A`. -/
def plain : Result :=
  ⟨"X", .fail, Entries.ofList [("A_x", .bool false), ("repeatedGroups", .bool false)]⟩

/-- Comes from the group `A`. -/
def grouped : Result :=
  ⟨"X", .pass, Entries.ofList [("group", .text "A"), ("x", .bool true)]⟩

/-- Has an empty text where a result names its group. -/
def unnamed : Result :=
  ⟨"X", .caution, Entries.ofList [("group", .text ""), ("x", .bool false)]⟩

def collided : List Result :=
  [plain, grouped, unnamed]

theorem lastContribution_collided :
    LastContribution collided "X" "A_x" (.bool true) := by
  have tagged : Tagged grouped "A" := ⟨rfl, by decide⟩
  refine ⟨[plain], grouped, [unnamed], rfl, rfl,
    ⟨"x", by decide, rfl, Or.inl ⟨"A", tagged, rfl⟩⟩, ?_⟩
  intro s hs _ w there
  rw [List.mem_singleton.mp hs] at there
  have keys : (evidence unnamed).map Prod.fst = ["x"] := rfl
  have among := there.mem_keys
  rw [keys] at among
  exact absurd among (by decide)

end Collision

open Collision in
/-- The evidence of the group goes over what stood under its key, and the list of groups goes
over a key of the same name. -/
theorem consolidate_exact_of_collision :
    ∃ r ∈ consolidate collided, r.ruleType = "X" ∧
      IsGreatest {a | ∃ e ∈ collided, e.ruleType = "X" ∧ e.lamp = a} r.lamp ∧
      r.detail.get? "group" = none ∧
      r.detail.get? "A_x" = some (.bool true) ∧
      ∃ gs, FirstSeen (fun e g => e.ruleType = "X" ∧ Tagged e g) collided gs ∧
        r.detail.get? "repeatedGroups" = some (.texts gs) := by
  obtain ⟨r, member, type⟩ : ∃ r ∈ consolidate collided, r.ruleType = "X" := by
    have types : (consolidate collided).map Result.ruleType = ["X"] := rfl
    exact List.mem_map.mp (types ▸ List.mem_singleton_self "X")
  obtain ⟨greatest, none, stands, listed⟩ := (consolidate_exact collided).2 r member
  rw [type] at greatest stands listed
  refine ⟨r, member, type, greatest, none, ?_, ?_⟩
  · exact (stands "A_x" (.bool true) (Or.inl (by decide))).mpr lastContribution_collided
  · exact listed ⟨grouped, by simp [collided], rfl, "A", rfl, by decide⟩

end Consolidation
end RuncardReview
