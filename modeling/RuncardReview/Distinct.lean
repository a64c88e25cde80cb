/-!
# Lists without repeats, in order of first appearance

Lot types, tool entries and contributing groups are collected in the order in
which they first appear, and a repeat changes nothing.

**Results.**
* `mem_addNew`, `mem_firsts`: nothing is lost and nothing is invented.
* `nodup_addNew`, `nodup_firsts`: there are no repeats.
* `addAllNew_of_nodup`, `firsts_of_nodup`: a list without repeats stays as it is.
-/

namespace RuncardReview
namespace Distinct

variable {α : Type} [DecidableEq α]

/-- Adds a value at the end unless it is there already. -/
def addNew (l : List α) (x : α) : List α :=
  if x ∈ l then l else l ++ [x]

/-- The values of a list in order of first appearance, added to `l`. -/
def addAllNew (l xs : List α) : List α :=
  xs.foldl addNew l

/-- The values of a list in order of first appearance. -/
def firsts (xs : List α) : List α :=
  addAllNew [] xs

theorem mem_addNew {l : List α} {x y : α} : y ∈ addNew l x ↔ y ∈ l ∨ y = x := by
  unfold addNew
  split
  · rename_i h
    constructor
    · exact Or.inl
    · rintro (hy | hy)
      · exact hy
      · exact hy ▸ h
  · simp

theorem mem_addAllNew (y : α) :
    ∀ xs l : List α, y ∈ addAllNew l xs ↔ y ∈ l ∨ y ∈ xs
  | [], l => by simp [addAllNew]
  | x :: xs, l => by
      have := mem_addAllNew y xs (addNew l x)
      simp only [addAllNew, List.foldl_cons] at this ⊢
      rw [this, mem_addNew, List.mem_cons, or_assoc]

theorem mem_firsts {xs : List α} {y : α} : y ∈ firsts xs ↔ y ∈ xs := by
  simp [firsts, mem_addAllNew]

theorem pairwise_addNew {R : α → α → Prop} {l : List α} {x : α} (h : l.Pairwise R)
    (new : x ∉ l → ∀ y ∈ l, R y x) : (addNew l x).Pairwise R := by
  unfold addNew
  split
  · exact h
  · rename_i hx
    refine List.pairwise_append.mpr ⟨h, List.pairwise_singleton R x, fun y hy z hz => ?_⟩
    rw [List.mem_singleton.mp hz]
    exact new hx y hy

theorem nodup_addNew {l : List α} {x : α} (h : l.Nodup) : (addNew l x).Nodup :=
  pairwise_addNew h fun hx _ hy e => hx (e ▸ hy)

theorem nodup_addAllNew :
    ∀ xs l : List α, l.Nodup → (addAllNew l xs).Nodup
  | [], _, h => h
  | x :: xs, l, h => nodup_addAllNew xs (addNew l x) (nodup_addNew h)

theorem nodup_firsts (xs : List α) : (firsts xs).Nodup :=
  nodup_addAllNew xs [] List.nodup_nil

theorem firsts_concat (xs : List α) (x : α) :
    firsts (xs ++ [x]) = addNew (firsts xs) x := by
  simp [firsts, addAllNew]

theorem addAllNew_of_nodup {xs : List α} :
    ∀ {l : List α}, (l ++ xs).Nodup → addAllNew l xs = l ++ xs := by
  induction xs with
  | nil => simp [addAllNew]
  | cons x xs ih =>
      intro l distinct
      have fresh : x ∉ l := fun h =>
        (List.nodup_append.mp distinct).2.2 x h x List.mem_cons_self rfl
      have distinct' : ((l ++ [x]) ++ xs).Nodup := by simpa using distinct
      show addAllNew (addNew l x) xs = _
      rw [addNew, if_neg fresh, ih distinct', List.append_assoc, List.singleton_append]

theorem firsts_of_nodup {xs : List α} (distinct : xs.Nodup) :
    firsts xs = xs :=
  addAllNew_of_nodup (l := []) distinct

theorem firsts_eq_nil_iff {xs : List α} :
    firsts xs = [] ↔ xs = [] := by
  constructor
  · intro h
    refine List.eq_nil_iff_forall_not_mem.mpr fun x hx => ?_
    have : x ∈ firsts xs := mem_firsts.mpr hx
    rw [h] at this
    cases this
  · rintro rfl
    rfl

end Distinct
end RuncardReview
