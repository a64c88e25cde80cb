/-!
# Named entries

A collection of values under names, kept in ascending order of the names (by
code point).  Writing a name again replaces its value.  The order is part of the
type, so two collections that answer every look-up alike are equal.

**Results.**
* `get?_insert`, `get?_erase`, `get?_empty`: what each operation does to the
  look-ups.
* `get?_eq_some_iff`: a look-up finds exactly the pairs of the list.
* `ext_get?`: a collection is determined by its look-ups.
* `get?_foldl_of_forall_ne`, `get?_foldl_of_agree`: a look-up after several writes.
* `mem_of_mem_ofList`: a collection holds pairs of the list it was collected from.
* `ofList_of_perm`: a collection is what its pairs, in any order, are collected into.
-/

namespace RuncardReview

/-- Ascending order of the names, which makes them distinct. -/
def Ascending {α : Type} (l : List (String × α)) : Prop :=
  l.Pairwise fun a b => a.1 < b.1

/-- Values under names, in ascending order of the names. -/
structure Entries (α : Type) where
  toList : List (String × α)
  ascending : Ascending toList
  deriving DecidableEq

namespace Entries

variable {α : Type}

theorem ext_toList {s t : Entries α} (h : s.toList = t.toList) : s = t := by
  cases s
  cases t
  cases h
  rfl

def empty : Entries α :=
  ⟨[], List.Pairwise.nil⟩

/-- The value under a name in a list of pairs. -/
def find? (k : String) : List (String × α) → Option α
  | [] => none
  | e :: l => if e.1 = k then some e.2 else find? k l

/-- Puts a pair at its place, replacing the one of the same name. -/
def put (k : String) (v : α) : List (String × α) → List (String × α)
  | [] => [(k, v)]
  | e :: l =>
      if k < e.1 then (k, v) :: e :: l
      else if e.1 < k then e :: put k v l
      else (k, v) :: l

def remove (k : String) : List (String × α) → List (String × α)
  | [] => []
  | e :: l => if e.1 = k then l else e :: remove k l

theorem eq_of_not_lt {a b : String} (h : ¬a < b) (h' : ¬b < a) : a = b :=
  String.le_antisymm (String.not_lt.mp h') (String.not_lt.mp h)

theorem ne_of_lt {a b : String} (h : a < b) : a ≠ b := by
  intro e
  subst e
  exact String.lt_irrefl a h

theorem mem_put {k : String} {v : α} {e : String × α} :
    ∀ {l : List (String × α)}, e ∈ put k v l → e = (k, v) ∨ e ∈ l
  | [], h => by simpa [put] using h
  | d :: l, h => by
      simp only [put] at h
      split at h
      · rcases List.mem_cons.mp h with h | h
        · exact Or.inl h
        · exact Or.inr h
      · split at h
        · rcases List.mem_cons.mp h with h | h
          · exact Or.inr (List.mem_cons.mpr (Or.inl h))
          · rcases mem_put h with h | h
            · exact Or.inl h
            · exact Or.inr (List.mem_cons_of_mem d h)
        · rcases List.mem_cons.mp h with h | h
          · exact Or.inl h
          · exact Or.inr (List.mem_cons_of_mem d h)

theorem ascending_put (k : String) (v : α) :
    ∀ {l : List (String × α)}, Ascending l → Ascending (put k v l)
  | [], _ => List.pairwise_singleton _ _
  | d :: l, h => by
      obtain ⟨hd, hl⟩ := List.pairwise_cons.mp h
      simp only [put]
      split
      · rename_i hk
        refine List.pairwise_cons.mpr ⟨fun e he => ?_, h⟩
        rcases List.mem_cons.mp he with he | he
        · exact he ▸ hk
        · exact String.lt_trans hk (hd e he)
      · split
        · rename_i hk
          refine List.pairwise_cons.mpr ⟨fun e he => ?_, ascending_put k v hl⟩
          rcases mem_put he with he | he
          · exact he ▸ hk
          · exact hd e he
        · rename_i hk hk'
          have hkd : k = d.1 := eq_of_not_lt hk hk'
          exact List.pairwise_cons.mpr ⟨fun e he => hkd ▸ hd e he, hl⟩

theorem mem_of_mem_remove {k : String} {e : String × α} :
    ∀ {l : List (String × α)}, e ∈ remove k l → e ∈ l
  | [], h => by simp [remove] at h
  | d :: l, h => by
      simp only [remove] at h
      split at h
      · exact List.mem_cons_of_mem d h
      · rcases List.mem_cons.mp h with h | h
        · exact List.mem_cons.mpr (Or.inl h)
        · exact List.mem_cons_of_mem d (mem_of_mem_remove h)

theorem ascending_remove (k : String) :
    ∀ {l : List (String × α)}, Ascending l → Ascending (remove k l)
  | [], h => h
  | d :: l, h => by
      obtain ⟨hd, hl⟩ := List.pairwise_cons.mp h
      simp only [remove]
      split
      · exact hl
      · exact List.pairwise_cons.mpr
          ⟨fun e he => hd e (mem_of_mem_remove he), ascending_remove k hl⟩

def get? (s : Entries α) (k : String) : Option α :=
  find? k s.toList

def insert (s : Entries α) (k : String) (v : α) : Entries α :=
  ⟨put k v s.toList, ascending_put k v s.ascending⟩

def erase (s : Entries α) (k : String) : Entries α :=
  ⟨remove k s.toList, ascending_remove k s.ascending⟩

/-- The entries of a list of pairs; of two with one name the later one stays. -/
def ofList (l : List (String × α)) : Entries α :=
  l.foldl (fun s e => s.insert e.1 e.2) empty

def size (s : Entries α) : Nat :=
  s.toList.length

def isEmpty (s : Entries α) : Bool :=
  s.toList.isEmpty

def names (s : Entries α) : List String :=
  s.toList.map Prod.fst

theorem find?_put (k j : String) (v : α) :
    ∀ l : List (String × α), find? j (put k v l) = if k = j then some v else find? j l
  | [] => by simp [put, find?]
  | d :: l => by
      simp only [put]
      split
      · simp [find?]
      · split
        · rename_i hk
          simp only [find?, find?_put k j v l]
          by_cases hj : d.1 = j
          · have : k ≠ j := fun e => ne_of_lt hk (hj.trans e.symm)
            simp [hj, this]
          · simp [hj]
        · rename_i hk hk'
          have hkd : k = d.1 := eq_of_not_lt hk hk'
          by_cases hj : k = j
          · simp [find?, hj]
          · have : d.1 ≠ j := fun e => hj (hkd.trans e)
            simp [find?, hj, this]

theorem find?_eq_none {k : String} :
    ∀ {l : List (String × α)}, (∀ e, e ∈ l → e.1 ≠ k) → find? k l = none
  | [], _ => rfl
  | d :: l, h => by
      have hd : d.1 ≠ k := h d (List.mem_cons.mpr (Or.inl rfl))
      simp [find?, hd, find?_eq_none fun e he => h e (List.mem_cons_of_mem d he)]

theorem find?_remove (k j : String) :
    ∀ {l : List (String × α)}, Ascending l →
      find? j (remove k l) = if k = j then none else find? j l
  | [], _ => by simp [remove, find?]
  | d :: l, h => by
      obtain ⟨hd, hl⟩ := List.pairwise_cons.mp h
      simp only [remove]
      split
      · rename_i hdk
        by_cases hj : k = j
        · subst hj
          rw [if_pos rfl]
          exact find?_eq_none fun e he hek => ne_of_lt (hd e he) (hdk.trans hek.symm)
        · have : d.1 ≠ j := fun e => hj (hdk.symm.trans e)
          simp [find?, hj, this]
      · rename_i hdk
        simp only [find?, find?_remove k j hl]
        by_cases hj : d.1 = j
        · have : k ≠ j := fun e => hdk (hj.trans e.symm)
          simp [hj, this]
        · simp [hj]

theorem find?_eq_some_iff {k : String} {v : α} :
    ∀ {l : List (String × α)}, Ascending l → (find? k l = some v ↔ (k, v) ∈ l)
  | [], _ => by simp [find?]
  | d :: l, h => by
      obtain ⟨hd, hl⟩ := List.pairwise_cons.mp h
      obtain ⟨dk, dv⟩ := d
      simp only [find?]
      by_cases hk : dk = k
      · subst hk
        rw [if_pos rfl, Option.some.injEq, List.mem_cons, Prod.mk.injEq]
        constructor
        · intro e
          exact Or.inl ⟨rfl, e.symm⟩
        · rintro (e | e)
          · exact e.2.symm
          · exact absurd (hd _ e) (String.lt_irrefl dk)
      · have : ¬(k = dk) := fun e => hk e.symm
        simp [hk, this, find?_eq_some_iff hl]

@[simp] theorem get?_empty (k : String) : (empty : Entries α).get? k = none := rfl

theorem get?_insert (s : Entries α) (k j : String) (v : α) :
    (s.insert k v).get? j = if k = j then some v else s.get? j :=
  find?_put k j v s.toList

theorem get?_erase (s : Entries α) (k j : String) :
    (s.erase k).get? j = if k = j then none else s.get? j :=
  find?_remove k j s.ascending

theorem get?_eq_some_iff {s : Entries α} {k : String} {v : α} :
    s.get? k = some v ↔ (k, v) ∈ s.toList :=
  find?_eq_some_iff s.ascending

theorem eq_of_find? : ∀ {l m : List (String × α)}, Ascending l → Ascending m →
    (∀ k, find? k l = find? k m) → l = m
  | [], [], _, _, _ => rfl
  | [], e :: m, _, _, h => by
      have := h e.1
      simp [find?] at this
  | d :: l, [], _, _, h => by
      have := h d.1
      simp [find?] at this
  | d :: l, e :: m, hl, hm, h => by
      obtain ⟨hd, hl'⟩ := List.pairwise_cons.mp hl
      obtain ⟨he, hm'⟩ := List.pairwise_cons.mp hm
      have hde : d ∈ e :: m :=
        (find?_eq_some_iff hm).mp (by rw [← h d.1]; simp [find?])
      have hed : e ∈ d :: l :=
        (find?_eq_some_iff hl).mp (by rw [h e.1]; simp [find?])
      have same : d = e := by
        rcases List.mem_cons.mp hde with e₁ | e₁
        · exact e₁
        · rcases List.mem_cons.mp hed with e₂ | e₂
          · exact e₂.symm
          · exact absurd (hd e e₂) (String.lt_asymm (he d e₁))
      subst same
      have tails : l = m := by
        refine eq_of_find? hl' hm' fun k => ?_
        by_cases hk : d.1 = k
        · subst hk
          rw [find?_eq_none fun e h => (ne_of_lt (hd e h)).symm,
            find?_eq_none fun e h => (ne_of_lt (he e h)).symm]
        · have := h k
          simpa [find?, hk] using this
      rw [tails]

/-- A collection is determined by its look-ups. -/
theorem ext_get? {s t : Entries α} (h : ∀ k, s.get? k = t.get? k) : s = t :=
  ext_toList (eq_of_find? s.ascending t.ascending h)

theorem insert_insert (s : Entries α) (k : String) (v w : α) :
    (s.insert k v).insert k w = s.insert k w := by
  refine ext_get? fun j => ?_
  simp only [get?_insert]
  split <;> rfl

theorem get?_foldl_of_forall_ne {k : String} :
    ∀ {l : List (String × α)} {s : Entries α}, (∀ e ∈ l, e.1 ≠ k) →
      (l.foldl (fun s e => s.insert e.1 e.2) s).get? k = s.get? k
  | [], _, _ => rfl
  | e :: l, s, others => by
      rw [List.foldl_cons, get?_foldl_of_forall_ne fun d hd => others d (List.mem_cons_of_mem e hd),
        get?_insert, if_neg (others e List.mem_cons_self)]

/-- The value under a key after some writes: all writes of the key write this value, and
there is one, unless the value stood there before. -/
theorem get?_foldl_of_agree {k : String} {v : α} :
    ∀ {l : List (String × α)} {s : Entries α}, (∀ e ∈ l, e.1 = k → e.2 = v) →
      (k, v) ∈ l ∨ s.get? k = some v →
      (l.foldl (fun s e => s.insert e.1 e.2) s).get? k = some v
  | [], _, _, there => there.resolve_left (by simp)
  | e :: l, s, agree, there => by
      rw [List.foldl_cons]
      refine get?_foldl_of_agree (fun d hd => agree d (List.mem_cons_of_mem e hd)) ?_
      rw [get?_insert]
      by_cases here : e.1 = k
      · exact Or.inr (by rw [if_pos here, agree e List.mem_cons_self here])
      · rw [if_neg here]
        refine there.imp_left fun member => (List.mem_cons.mp member).resolve_left ?_
        rintro rfl
        exact here rfl

theorem mem_foldl_insert {e : String × α} :
    ∀ {l : List (String × α)} {s : Entries α},
      e ∈ (l.foldl (fun s e => s.insert e.1 e.2) s).toList → e ∈ s.toList ∨ e ∈ l
  | [], _, h => Or.inl h
  | d :: l, s, h => by
      rw [List.foldl_cons] at h
      rcases mem_foldl_insert h with h | h
      · rcases mem_put h with h | h
        · exact Or.inr (List.mem_cons.mpr (Or.inl h))
        · exact Or.inl h
      · exact Or.inr (List.mem_cons_of_mem d h)

/-- Collecting invents no entry. -/
theorem mem_of_mem_ofList {l : List (String × α)} {e : String × α} (h : e ∈ (ofList l).toList) :
    e ∈ l :=
  (mem_foldl_insert h).resolve_left (by simp [empty])

/-- Collecting the entries of a collection in any order gives the collection. -/
theorem ofList_of_perm {l : List (String × α)} {s : Entries α} (order : l.Perm s.toList) :
    ofList l = s := by
  have stands : ∀ e ∈ l, s.get? e.1 = some e.2 := fun e he =>
    get?_eq_some_iff.mpr (order.mem_iff.mp he)
  refine ext_get? fun k => ?_
  cases found : s.get? k with
  | some v =>
      refine get?_foldl_of_agree (fun e he same => ?_)
        (Or.inl (order.mem_iff.mpr (get?_eq_some_iff.mp found)))
      exact Option.some.inj ((stands e he).symm.trans (same ▸ found))
  | none =>
      refine get?_foldl_of_forall_ne fun e he same => ?_
      rw [← same, stands e he] at found
      cases found

end Entries
end RuncardReview
