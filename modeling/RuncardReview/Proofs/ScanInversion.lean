import RuncardReview.Proofs.ScanFound

/-!
# What a scanner has found

A scan that has come to an end is read backwards: from what a composed scanner finds to
what its parts have found.

**Results.**
* `bind_eq_found`, `bind_eq_absent`: the two ends of a sequence.
* `char_eq_found`, `word_eq_found`, `span1_eq_found`: the scanners of characters.
* `absent_of_many`: where a repetition ends, no further round begins.
* `opt_ne_absent`, `require_ne_absent`, `many_ne_absent`: the scanners that are never absent.
-/

namespace RuncardReview

namespace Step

variable {α β : Type} {f : α → β} {x : Step α} {b : β} {rest : List Char}

theorem map_eq_found :
    x.map f = .found b rest ↔ ∃ a, x = .found a rest ∧ f a = b := by
  cases x with
  | found a r =>
      constructor
      · rintro ⟨⟩
        exact ⟨a, rfl, rfl⟩
      · rintro ⟨_, ⟨⟩, rfl⟩
        rfl
  | _ => simp [map, andThen]

theorem map_eq_absent :
    x.map f = .absent ↔ x = .absent := by
  cases x <;> simp [map, andThen]

end Step

namespace Scanner

variable {α β : Type} {p : Scanner α} {f : α → Scanner β} {s rest : List Char}

theorem bind_eq_found {b : β} :
    (p >>= f) s = .found b rest ↔
      ∃ a middle, p s = .found a middle ∧ f a middle = .found b rest := by
  show (p s).andThen f = _ ↔ _
  cases p s with
  | found a r =>
      refine ⟨fun there => ⟨a, r, rfl, there⟩, ?_⟩
      rintro ⟨_, _, ⟨⟩, there⟩
      exact there
  | _ => simp [Step.andThen]

theorem bind_eq_absent :
    (p >>= f) s = .absent ↔
      p s = .absent ∨ ∃ a middle, p s = .found a middle ∧ f a middle = .absent := by
  show (p s).andThen f = _ ↔ _
  cases p s with
  | found a r =>
      refine ⟨fun there => Or.inr ⟨a, r, rfl, there⟩, fun ends => ?_⟩
      obtain ⟨_, _, ⟨⟩, there⟩ := ends.resolve_left (by simp)
      exact there
  | _ => simp [Step.andThen]

theorem require_eq_found {a : α} :
    require p s = .found a rest ↔ p s = .found a rest := by
  unfold require
  cases p s <;> simp

theorem expecting_eq_found {what : String} {a : α} :
    expecting what p s = .found a rest ↔ p s = .found a rest := by
  unfold expecting
  cases p s <;> simp

theorem opt_ne_absent (p : Scanner α) (s : List Char) :
    opt p s ≠ .absent := by
  unfold opt
  cases p s <;> simp [Step.map, Step.andThen]

theorem require_ne_absent (p : Scanner α) (s : List Char) :
    require p s ≠ .absent := by
  unfold require
  cases p s <;> simp

theorem char_eq_found {c : Char} {u : Unit} :
    char c s = .found u rest ↔ s = c :: rest := by
  cases s with
  | nil => simp [char]
  | cons x s =>
      by_cases same : x = c
      · simp [char, same]
      · simp [char, same]

theorem word_eq_found {w : List Char} {u : Unit} :
    word w s = .found u rest ↔ s = w ++ rest := by
  induction w generalizing s with
  | nil => simp [word]
  | cons c w ih =>
      show (char c >>= fun _ => word w) s = _ ↔ _
      simp [bind_eq_found, char_eq_found, ih]

theorem span1_eq_found {c : Char → Bool} {w : List Char} :
    span1 c s = .found w rest ↔
      w ≠ [] ∧ (∀ x ∈ w, c x = true) ∧ Stops c rest ∧ s = w ++ rest := by
  constructor
  · intro found
    unfold span1 at found
    split at found
    · cases found
    · rename_i some
      cases found
      exact ⟨by simpa using some, fun x hx => List.all_eq_true.mp List.all_takeWhile x hx,
        stops_dropWhile c s, List.takeWhile_append_dropWhile.symm⟩
  · rintro ⟨some, run, stop, rfl⟩
    exact span1_found some run stop

theorem absent_of_many {as : List α} (found : many p s = .found as rest) :
    p rest = .absent := by
  fun_induction many p s generalizing as with
  | case1 s a middle _ _ ih =>
      obtain ⟨_, more, -⟩ := Step.map_eq_found.mp found
      exact ih more
  | case3 s absent =>
      cases found
      exact absent
  | _ => cases found

theorem many_ne_absent (p : Scanner α) (s : List Char) :
    many p s ≠ .absent := by
  fun_induction many p s with
  | case1 s a middle _ _ ih => exact fun ends => ih (Step.map_eq_absent.mp ends)
  | _ => simp

theorem manyAfter_ne_absent (p : Scanner α) (separator : Scanner Unit) (s : List Char) :
    manyAfter p separator s ≠ .absent := by
  fun_induction manyAfter p separator s with
  | case1 _ _ _ _ _ _ _ _ _ ih => exact fun ends => ih (Step.map_eq_absent.mp ends)
  | _ => simp

theorem separated_eq_found {separator : Scanner Unit} {as : List α} :
    separated p separator s = .found as rest ↔
      separated1 p separator s = .found as rest ∨
        separated1 p separator s = .absent ∧ as = [] ∧ rest = s := by
  unfold separated
  cases separated1 p separator s with
  | absent => simp [eq_comm]
  | _ => simp

theorem separated_ne_absent (p : Scanner α) (separator : Scanner Unit) (s : List Char) :
    separated p separator s ≠ .absent := by
  unfold separated
  cases separated1 p separator s <;> simp

end Scanner
end RuncardReview
