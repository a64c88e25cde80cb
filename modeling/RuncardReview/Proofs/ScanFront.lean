import RuncardReview.Proofs.ScanInversion

/-!
# What is found takes up the front of the text

A scanner leaves the text behind what it has found as it is, so what it has found stands in
the text before that.  `Reads` says in which form it stands there; it is the converse of the
written forms, with one lemma for each combinator.

**Results.**
* `Reads.bind`, `Reads.orElse`, `Reads.opt`: sequence and choice.
* `Reads.span1`, `Reads.word`: the scanners of characters.
* `Reads.many`, `Reads.separated1`: what is found in rounds stands there as a sequence.
-/

namespace RuncardReview

section Items

variable {α : Type} {item : α → List Char → Prop} {as : List α} {ts : List Char} {P : α → Prop}

theorem Sequence.forall_mem (written : Sequence item as ts) (holds : ∀ a t, item a t → P a) :
    ∀ a ∈ as, P a := by
  induction written with
  | nil => simp
  | cons first _ ih => exact List.forall_mem_cons.mpr ⟨holds _ _ first, ih⟩

theorem Sequence.imp_of_mem {item' : α → List Char → Prop} (written : Sequence item as ts)
    (implies : ∀ a ∈ as, ∀ t, item a t → item' a t) :
    Sequence item' as ts := by
  induction written with
  | nil => exact .nil
  | cons first _ ih =>
      obtain ⟨here, there⟩ := List.forall_mem_cons.mp implies
      exact .cons (here _ first) (ih there)

theorem Separated.forall_mem {separator : List Char → Prop}
    (written : Separated separator item as ts) (holds : ∀ a t, item a t → P a) :
    ∀ a ∈ as, P a := by
  induction written with
  | one only => exact List.forall_mem_singleton.mpr (holds _ _ only)
  | cons first _ _ ih => exact List.forall_mem_cons.mpr ⟨holds _ _ first, ih⟩

/-- Items that are made from others are written as those are. -/
theorem Separated.exists_map {β : Type} {separator : List Char → Prop} {f : β → α}
    {made : β → List Char → Prop}
    (written : Separated separator (fun a t => ∃ b, f b = a ∧ made b t) as ts) :
    ∃ bs, bs.map f = as ∧ Separated separator made bs ts := by
  induction written with
  | one only =>
      obtain ⟨b, rfl, form⟩ := only
      exact ⟨[b], rfl, .one form⟩
  | cons first comma _ ih =>
      obtain ⟨b, rfl, form⟩ := first
      obtain ⟨bs, rfl, forms⟩ := ih
      exact ⟨b :: bs, rfl, .cons form comma forms⟩

end Items

namespace Scanner

variable {α β : Type} {p q : Scanner α} {f : α → Scanner β} {R : α → List Char → Prop}

/-- Whatever the scanner finds stands at the front of the text, in one of these forms. -/
def Reads (p : Scanner α) (R : α → List Char → Prop) : Prop :=
  ∀ s a rest, p s = .found a rest → ∃ t, s = t ++ rest ∧ R a t

theorem Reads.imp {S : α → List Char → Prop} (reads : Reads p R)
    (implies : ∀ a t, R a t → S a t) :
    Reads p S := by
  intro s a rest found
  obtain ⟨t, split, form⟩ := reads s a rest found
  exact ⟨t, split, implies a t form⟩

theorem Reads.pure {a : α} (form : R a []) :
    Reads (Pure.pure a) R := by
  rintro s _ _ ⟨⟩
  exact ⟨[], rfl, form⟩

/-- What the second scanner finds stands behind what the first has found. -/
theorem Reads.bind {S : β → List Char → Prop} (first : Reads p R)
    (second : ∀ a t, R a t → Reads (f a) fun b u => S b (t ++ u)) :
    Reads (p >>= f) S := by
  intro s b rest found
  obtain ⟨a, middle, here, there⟩ := bind_eq_found.mp found
  obtain ⟨t, rfl, form⟩ := first s a middle here
  obtain ⟨u, rfl, form'⟩ := second a t form middle b rest there
  exact ⟨t ++ u, (List.append_assoc t u rest).symm, form'⟩

/-- Where its place in the text does not matter, the first scanner need not be known. -/
theorem Reads.then {Q : β → Prop} (first : Reads p R)
    (second : ∀ a, Reads (f a) fun b _ => Q b) :
    Reads (p >>= f) fun b _ => Q b :=
  first.bind fun a _ _ => second a

theorem Reads.map {P : α → Prop} {Q : β → Prop} {g : α → β} (reads : Reads p fun a _ => P a)
    (holds : ∀ a, P a → Q (g a)) :
    Reads (g <$> p) fun b _ => Q b :=
  reads.bind fun a _ here => .pure (holds a here)

theorem Reads.orElse (first : Reads p R) (second : Reads q R) :
    Reads (orElse p q) R := by
  intro s a rest found
  unfold Scanner.orElse at found
  cases here : p s with
  | absent =>
      rw [here] at found
      exact second s a rest found
  | _ =>
      rw [here] at found
      exact first s a rest (here.trans found)

theorem Reads.opt (reads : Reads p R) :
    Reads (opt p) fun o t => o.elim (t = []) fun a => R a t := by
  intro s o rest found
  unfold Scanner.opt at found
  cases here : p s with
  | found a middle =>
      rw [here] at found
      cases found
      exact reads s a _ here
  | absent =>
      rw [here] at found
      cases found
      exact ⟨[], rfl, rfl⟩
  | _ =>
      rw [here] at found
      cases found

theorem Reads.require (reads : Reads p R) :
    Reads (require p) R :=
  fun s a rest found => reads s a rest (require_eq_found.mp found)

theorem Reads.expecting (what : String) (reads : Reads p R) :
    Reads (expecting what p) R :=
  fun s a rest found => reads s a rest (expecting_eq_found.mp found)

/-! ## Characters -/

theorem Reads.span (c : Char → Bool) :
    Reads (span c) fun w t => t = w ∧ ∀ x ∈ w, c x = true := by
  rintro s w rest ⟨⟩
  exact ⟨s.takeWhile c, List.takeWhile_append_dropWhile.symm, rfl,
    fun x hx => List.all_eq_true.mp List.all_takeWhile x hx⟩

theorem Reads.span1 (c : Char → Bool) :
    Reads (span1 c) fun w t => t = w ∧ w ≠ [] ∧ ∀ x ∈ w, c x = true := by
  intro s w rest found
  obtain ⟨some, run, -, split⟩ := span1_eq_found.mp found
  exact ⟨w, split, rfl, some, run⟩

theorem Reads.char (c : Char) :
    Reads (char c) fun _ t => t = [c] :=
  fun _ _ _ found => ⟨[c], char_eq_found.mp found, rfl⟩

theorem Reads.word (w : List Char) :
    Reads (word w) fun _ t => t = w :=
  fun _ _ _ found => ⟨w, word_eq_found.mp found, rfl⟩

/-! ## Repetitions -/

theorem Reads.many (reads : Reads p R) :
    Reads (many p) (Sequence R) := by
  intro s as rest found
  fun_induction Scanner.many p s generalizing as with
  | case1 s a middle here _ ih =>
      obtain ⟨others, more, rfl⟩ := Step.map_eq_found.mp found
      obtain ⟨t, rfl, form⟩ := reads s a middle here
      obtain ⟨ts, rfl, forms⟩ := ih others more
      exact ⟨t ++ ts, (List.append_assoc t ts rest).symm, .cons form forms⟩
  | case3 s _ =>
      cases found
      exact ⟨[], rfl, .nil⟩
  | _ => cases found

theorem Reads.each_many {P : α → Prop} (reads : Reads p fun a _ => P a) :
    Reads (Scanner.many p) fun as _ => ∀ a ∈ as, P a :=
  reads.many.imp fun _ _ forms => forms.forall_mem fun _ _ holds => holds

variable {separator : Scanner Unit} {B : List Char → Prop}

/-- After the first item there is nothing, or a separator and the other items. -/
theorem Reads.manyAfter (reads : Reads p R) (between : Reads separator fun _ => B) :
    Reads (Scanner.manyAfter p separator) fun as t =>
      as = [] ∧ t = [] ∨ ∃ b u, t = b ++ u ∧ B b ∧ Separated B R as u := by
  intro s as rest found
  fun_induction Scanner.manyAfter p separator s generalizing as with
  | case1 s _ middle here _ a next item _ ih =>
      obtain ⟨others, more, rfl⟩ := Step.map_eq_found.mp found
      obtain ⟨b, rfl, comma⟩ := between s _ middle here
      obtain ⟨t, rfl, form⟩ := reads middle a next item
      obtain ⟨u, rfl, last | ⟨b', ts, rfl, comma', forms⟩⟩ := ih others more
      · obtain ⟨rfl, rfl⟩ := last
        exact ⟨b ++ t, by simp, Or.inr ⟨b, t, rfl, comma, .one form⟩⟩
      · exact ⟨b ++ (t ++ (b' ++ ts)), by simp,
          Or.inr ⟨b, _, rfl, comma, .cons form comma' forms⟩⟩
  | case3 | case7 =>
      cases found
      exact ⟨[], rfl, Or.inl ⟨rfl, rfl⟩⟩
  | _ => cases found

theorem Reads.separated1 (reads : Reads p R) (between : Reads separator fun _ => B) :
    Reads (Scanner.separated1 p separator) (Separated B R) := by
  intro s as rest found
  obtain ⟨a, middle, here, there⟩ := bind_eq_found.mp found
  obtain ⟨others, more, rfl⟩ := Step.map_eq_found.mp there
  obtain ⟨t, rfl, form⟩ := reads s a middle here
  obtain ⟨u, rfl, last | ⟨b, ts, rfl, comma, forms⟩⟩ :=
    reads.manyAfter between middle others rest more
  · obtain ⟨rfl, rfl⟩ := last
    exact ⟨t, by simp, .one form⟩
  · exact ⟨t ++ (b ++ ts), by simp, .cons form comma forms⟩

theorem Reads.each_separated1 {P : α → Prop} (reads : Reads p fun a _ => P a)
    (between : Reads separator fun _ => B) :
    Reads (Scanner.separated1 p separator) fun as _ => ∀ a ∈ as, P a :=
  (reads.separated1 between).imp fun _ _ forms => forms.forall_mem fun _ _ holds => holds

theorem Reads.each_separated {P : α → Prop} (reads : Reads p fun a _ => P a)
    (between : Reads separator fun _ => B) :
    Reads (Scanner.separated p separator) fun as _ => ∀ a ∈ as, P a := by
  intro s as rest found
  rcases separated_eq_found.mp found with some | ⟨-, rfl, rfl⟩
  · exact reads.each_separated1 between s as rest some
  · exact ⟨[], rfl, by simp⟩

end Scanner
end RuncardReview
