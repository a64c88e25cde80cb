import Mathlib.Data.List.Forall2
import RuncardReview.Evaluation

/-!
# What an inquiry can end with

Some properties of the value of an inquiry hold whatever comes back from its
queries.  `Ends P` says so: every way through the inquiry ends with a value that
has the property.

**Results.**
* `ends_bind`, `ends_map`, `inOrder_ends`: what a composed inquiry ends with.
* `ofRuncard_ends`: the results of a runcard name that runcard, whatever the
  lookups of its checks come to.
-/

namespace RuncardReview
namespace Inquiry

variable {α β : Type}

/-- Every way through the inquiry ends with a value that has the property. -/
def Ends (P : α → Prop) : Inquiry α → Prop
  | done a => P a
  | ask _ next => ∀ r, Ends P (next r)

theorem ends_bind {P : α → Prop} {Q : β → Prop} {x : Inquiry α} {f : α → Inquiry β}
    (hx : x.Ends P) (hf : ∀ a, P a → (f a).Ends Q) :
    (x.bind f).Ends Q := by
  induction x with
  | done a => exact hf a hx
  | ask q next ih => exact fun r => ih r (hx r)

theorem ends_trivial (x : Inquiry α) :
    x.Ends fun _ => True := by
  induction x with
  | done a => trivial
  | ask q next ih => exact ih

theorem ends_map {P : β → Prop} {f : α → β} (h : ∀ a, P (f a)) (x : Inquiry α) :
    (x.map f).Ends P :=
  ends_bind (ends_trivial x) fun a _ => h a

theorem Ends.imp {P Q : α → Prop} {x : Inquiry α} (h : x.Ends P) (implies : ∀ a, P a → Q a) :
    x.Ends Q := by
  induction x with
  | done a => exact implies a h
  | ask q next ih => exact fun r => ih r (h r)

theorem Ends.map {P : α → Prop} {Q : β → Prop} {f : α → β} {x : Inquiry α} (h : x.Ends P)
    (carries : ∀ a, P a → Q (f a)) :
    (x.map f).Ends Q :=
  ends_bind h carries

theorem Ends.run {P : α → Prop} {x : Inquiry α} (h : x.Ends P) (source : Source) :
    P (x.run source) := by
  induction x with
  | done a => exact h
  | ask q next ih => exact ih (source q) (h (source q))

end Inquiry

namespace Evaluation

theorem inOrder_map {α β γ : Type} (f : β → Inquiry γ) (g : α → β) (l : List α) :
    inOrder f (l.map g) = inOrder (fun a => f (g a)) l := by
  induction l with
  | nil => rfl
  | cons a l ih => rw [List.map_cons, inOrder, inOrder, ih]

/-- Inquiries made in order end with what each of them ends with. -/
theorem inOrder_ends {α β : Type} {R : α → β → Prop} {f : α → Inquiry β} {l : List α}
    (each : ∀ a ∈ l, (f a).Ends (R a)) :
    (inOrder f l).Ends fun bs => List.Forall₂ R l bs := by
  induction l with
  | nil => exact .nil
  | cons a l ih =>
      have others := ih fun b hb => each b (List.mem_cons_of_mem a hb)
      refine Inquiry.ends_bind (each a List.mem_cons_self) fun b first => ?_
      exact others.map fun bs rest => .cons first rest

theorem ofMapping_ends (registry : Registry) (runcard : Runcard)
    (conditions : List ConditionMapping) :
    (ofMapping registry ⟨some runcard, conditions⟩).Ends fun result =>
      result.runcard = runcard.id := by
  unfold ofMapping
  refine Inquiry.ends_map ?_ _
  intro results
  rfl

theorem ofRuncard_ends (registry : Registry) (runcard : Runcard)
    (conditions : List Condition) (groups : List Group) :
    (ofRuncard registry runcard conditions groups).Ends fun result =>
      result.runcard = runcard.id := by
  simp only [ofRuncard, Mapping.build]
  split <;> exact ofMapping_ends registry runcard _

end Evaluation
end RuncardReview
