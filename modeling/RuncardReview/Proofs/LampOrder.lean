import Mathlib.Order.Bounds.Basic
import Mathlib.Order.MinMax
import RuncardReview.Result

/-!
# Lamps are linearly ordered

The order by codes is linear with `skip` at the bottom, and the worst of some lamps
is the greatest of them.

**Results.**
* `worst?_eq_none_iff`, `worst?_eq_some_iff`: the worst lamp is the greatest one.
* `foldl_max_isGreatest`: folding with the maximum from `skip` finds it as well.
-/

namespace RuncardReview
namespace Lamp

theorem code_injective {a b : Lamp} (h : a.code = b.code) : a = b := by
  have : ofCode? a.code = ofCode? b.code := congrArg ofCode? h
  simpa [ofCode?_code] using this

instance : LinearOrder Lamp where
  le_refl a := Nat.le_refl a.code
  le_trans _ _ _ h h' := Nat.le_trans h h'
  le_antisymm _ _ h h' := code_injective (Nat.le_antisymm h h')
  le_total a b := Nat.le_total a.code b.code
  toDecidableLE := inferInstance

theorem skip_le (a : Lamp) :
    skip ≤ a :=
  Nat.zero_le a.code

theorem eq_fail_of_fail_le {a : Lamp} (h : fail ≤ a) :
    a = fail := by
  cases a with
  | fail => rfl
  | _ => exact absurd h (by decide)

theorem foldl_max_mem (l : List Lamp) (a : Lamp) :
    l.foldl max a = a ∨ l.foldl max a ∈ l := by
  induction l generalizing a with
  | nil => exact Or.inl rfl
  | cons b l ih =>
      rw [List.foldl_cons]
      rcases ih (max a b) with h | h
      · rcases max_choice a b with hm | hm
        · exact Or.inl (h.trans hm)
        · exact Or.inr (List.mem_cons.mpr (Or.inl (h.trans hm)))
      · exact Or.inr (List.mem_cons_of_mem b h)

theorem le_foldl_max (l : List Lamp) (a : Lamp) :
    a ≤ l.foldl max a ∧ ∀ b ∈ l, b ≤ l.foldl max a := by
  induction l generalizing a with
  | nil => exact ⟨le_refl a, by simp⟩
  | cons b l ih =>
      rw [List.foldl_cons]
      obtain ⟨start, rest⟩ := ih (max a b)
      refine ⟨le_trans (le_max_left a b) start, fun c hc => ?_⟩
      rcases List.mem_cons.mp hc with rfl | hc
      · exact le_trans (le_max_right a c) start
      · exact rest c hc

/-- From `skip` on, folding some lamps with the maximum finds the greatest. -/
theorem foldl_max_isGreatest {l : List Lamp} (some : l ≠ []) :
    IsGreatest {a | a ∈ l} (l.foldl max skip) := by
  refine ⟨?_, (le_foldl_max l skip).2⟩
  rcases foldl_max_mem l skip with h | h
  · obtain ⟨a, ha⟩ := List.exists_mem_of_ne_nil l some
    have bound := (le_foldl_max l skip).2 a ha
    rw [h] at bound
    have bottom : a = skip := le_antisymm bound (skip_le a)
    rw [h, ← bottom]
    exact ha
  · exact h

theorem worst?_eq_none_iff {l : List Lamp} :
    worst? l = none ↔ l = [] := by
  cases l <;> simp [worst?]

theorem worst?_eq_some_iff {l : List Lamp} {a : Lamp} :
    worst? l = some a ↔ IsGreatest {b | b ∈ l} a := by
  have greatest : ∀ {m}, worst? l = some m → IsGreatest {b | b ∈ l} m := by
    intro m h
    cases l with
    | nil => cases h
    | cons b l =>
        obtain rfl := Option.some.inj h
        have bounds := le_foldl_max l b
        refine ⟨?_, fun c hc => ?_⟩
        · rcases foldl_max_mem l b with h | h
          · exact List.mem_cons.mpr (Or.inl h)
          · exact List.mem_cons_of_mem b h
        · rcases List.mem_cons.mp hc with rfl | hc
          · exact bounds.1
          · exact bounds.2 c hc
  refine ⟨greatest, fun h => ?_⟩
  cases hw : worst? l with
  | none =>
      rw [worst?_eq_none_iff.mp hw] at h
      cases h.1
  | some m => rw [(greatest hw).unique h]

end Lamp
end RuncardReview
