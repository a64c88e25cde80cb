import RuncardReview.Proofs.ScanInversion

/-!
# Scans of a text that goes on

More text is added at the end of a text.  Most scanners do not notice: what they find, they
find with the added text left over as well, and where they see nothing to begin, nothing
begins now either.  A run of characters is the exception, if the added text carries it on.

The relation is between two scanners, since a scanner that takes its bound from the length
of the text becomes another one when the text is longer.

**Results.**
* `Carries.bind`, `Carries.orElse`, `Carries.opt`: sequence and choice.
* `Carries.span1`, `Carries.word`: the scanners of characters.
* `many_append`: the rounds of a repetition before the added text, and those after.
* `Carries.many`, `Carries.separated`: repetitions.
-/

namespace RuncardReview

section Runs

variable {c : Char → Bool} {t : List Char}

theorem takeWhile_append_of_stops (stop : Stops c t) (s : List Char) :
    (s ++ t).takeWhile c = s.takeWhile c := by
  induction s with
  | nil => exact takeWhile_of_stops (w := []) (by simp) stop
  | cons x s ih =>
      by_cases h : c x = true
      · simp [h, ih]
      · simp [h]

theorem dropWhile_append_of_stops (stop : Stops c t) (s : List Char) :
    (s ++ t).dropWhile c = s.dropWhile c ++ t := by
  induction s with
  | nil => exact dropWhile_of_stops (w := []) (by simp) stop
  | cons x s ih =>
      by_cases h : c x = true
      · simp [h, ih]
      · simp [h]

theorem Stops.append {s : List Char} (stop : Stops c s) (after : Stops c t) :
    Stops c (s ++ t) := by
  cases s with
  | nil => exact after
  | cons x s => exact stops_cons.mpr (stops_cons.mp stop)

/-- The longest run of characters of a class, and what stops it. -/
theorem exists_run (c : Char → Bool) (s : List Char) :
    ∃ w rest, s = w ++ rest ∧ (∀ x ∈ w, c x = true) ∧ Stops c rest :=
  ⟨s.takeWhile c, s.dropWhile c, List.takeWhile_append_dropWhile.symm,
    fun x hx => List.all_eq_true.mp List.all_takeWhile x hx, stops_dropWhile c s⟩

end Runs

namespace Scanner

variable {α β : Type} {t : List Char}

/-- A run is found as before if it is stopped as before. -/
theorem span1_append {c : Char → Bool} {s w rest : List Char} (found : span1 c s = .found w rest)
    (stop : Stops c (rest ++ t)) :
    span1 c (s ++ t) = .found w (rest ++ t) := by
  obtain ⟨some, run, -, rfl⟩ := span1_eq_found.mp found
  rw [List.append_assoc]
  exact span1_found some run stop

/-- What the first scanner sees in a text, the second sees when `t` is added to it. -/
structure Carries (t : List Char) (p q : Scanner α) : Prop where
  found : ∀ {s a rest}, p s = .found a rest → q (s ++ t) = .found a (rest ++ t)
  absent : ∀ {s}, p s = .absent → q (s ++ t) = .absent

namespace Carries

variable {p q p' q' : Scanner α} {f g : α → Scanner β}

theorem pure (a : α) :
    Carries t (Pure.pure a) (Pure.pure a) where
  found := by
    rintro s _ _ ⟨⟩
    rfl
  absent := nofun

theorem bind (first : Carries t p q) (second : ∀ a, Carries t (f a) (g a)) :
    Carries t (p >>= f) (q >>= g) where
  found there := by
    obtain ⟨a, middle, here, there⟩ := bind_eq_found.mp there
    rw [bind_found (first.found here)]
    exact (second a).found there
  absent ends := by
    rcases bind_eq_absent.mp ends with here | ⟨a, middle, here, there⟩
    · exact bind_absent (first.absent here)
    · rw [bind_found (first.found here)]
      exact (second a).absent there

theorem map (f : α → β) (carries : Carries t p q) :
    Carries t (f <$> p) (f <$> q) :=
  carries.bind fun a => pure (f a)

theorem orElse (first : Carries t p q) (second : Carries t p' q') :
    Carries t (orElse p p') (orElse q q') where
  found {s _ _} there := by
    cases here : p s with
    | found a rest =>
        rw [orElse_found here] at there
        cases there
        exact orElse_found (first.found here)
    | absent =>
        rw [orElse_absent here] at there
        rw [orElse_absent (first.absent here)]
        exact second.found there
    | _ => simp [Scanner.orElse, here] at there
  absent {s} ends := by
    cases here : p s with
    | absent =>
        rw [orElse_absent here] at ends
        rw [orElse_absent (first.absent here)]
        exact second.absent ends
    | _ => simp [Scanner.orElse, here] at ends

theorem opt (carries : Carries t p q) :
    Carries t (opt p) (opt q) where
  found {s _ _} there := by
    cases here : p s with
    | found a rest =>
        rw [opt_found here] at there
        cases there
        exact opt_found (carries.found here)
    | absent =>
        rw [opt_absent here] at there
        cases there
        exact opt_absent (carries.absent here)
    | _ => simp [Scanner.opt, here, Step.map, Step.andThen] at there
  absent ends := absurd ends (opt_ne_absent p _)

theorem require (carries : Carries t p q) :
    Carries t (require p) (require q) where
  found there :=
    require_found (carries.found (require_eq_found.mp there))
  absent ends := absurd ends (require_ne_absent p _)

theorem expecting (what : String) (carries : Carries t p q) :
    Carries t (expecting what p) (expecting what q) where
  found there :=
    expecting_found (carries.found (expecting_eq_found.mp there))
  absent {s} ends := by
    cases here : p s with
    | absent => exact expecting_absent (carries.absent here)
    | _ => simp [Scanner.expecting, here] at ends

/-! ## Characters -/

section Characters

variable {c : Char → Bool} {x : Char} {w : List Char}

theorem span (stop : Stops c t) :
    Carries t (span c) (span c) where
  found := by
    rintro s _ _ ⟨⟩
    rw [span_apply, takeWhile_append_of_stops stop, dropWhile_append_of_stops stop]
  absent := nofun

theorem span1 (stop : Stops c t) :
    Carries t (span1 c) (span1 c) where
  found there :=
    span1_append there ((span1_eq_found.mp there).2.2.1.append stop)
  absent {s} ends := by
    cases s with
    | nil => exact span1_absent stop
    | cons x s =>
        by_cases h : c x = true
        · simp [Scanner.span1, h] at ends
        · exact span1_absent (stops_cons.mpr (by simpa using h))

theorem char (other : t.head? ≠ some x) :
    Carries t (char x) (char x) where
  found there := by
    rw [char_eq_found] at there ⊢
    rw [there, List.cons_append]
  absent {s} ends := by
    cases s with
    | nil => exact char_absent other
    | cons y s =>
        refine char_absent fun same => ?_
        obtain rfl := Option.some.inj same
        rw [char_found] at ends
        cases ends

theorem word (other : ∀ x ∈ w, t.head? ≠ some x) :
    Carries t (word w) (word w) := by
  induction w with
  | nil => exact pure ()
  | cons x w ih =>
      exact (char (other x List.mem_cons_self)).bind fun _ =>
        ih fun y hy => other y (List.mem_cons_of_mem x hy)

end Characters

end Carries

/-! ## Repetitions -/

section Repetitions

variable {p q : Scanner α} {separator separator' : Scanner Unit} {s rest rest' : List Char}

/-- The rounds in a text, and after them those at its end with the added text. -/
theorem many_append {as bs : List α}
    (carried : ∀ {s a rest}, p s = .found a rest → q (s ++ t) = .found a (rest ++ t))
    (first : many p s = .found as rest) (second : many q (rest ++ t) = .found bs rest') :
    many q (s ++ t) = .found (as ++ bs) rest' := by
  fun_induction many p s generalizing as with
  | case1 s a middle here shorter ih =>
      obtain ⟨others, more, rfl⟩ := Step.map_eq_found.mp first
      have shorter' : (middle ++ t).length < (s ++ t).length := by
        simp only [List.length_append]
        omega
      rw [many_of_found (carried here) shorter', ih more]
      rfl
  | case3 s _ =>
      cases first
      exact second
  | _ => cases first

theorem Carries.many (carries : Carries t p q) :
    Carries t (many p) (many q) where
  found {s as rest} there := by
    have ended : q (rest ++ t) = .absent := carries.absent (absent_of_many there)
    simpa using many_append carries.found there (many_of_absent ended)
  absent ends := absurd ends (many_ne_absent p _)

section Rounds

variable {middle : List Char} (between : separator s = .found () middle)
  (shorter : middle.length < s.length)

include between shorter

theorem manyAfter_of_round {a : α} (next : p middle = .found a rest)
    (shorter' : rest.length < s.length) :
    manyAfter p separator s = (manyAfter p separator rest).map (a :: ·) := by
  rw [manyAfter, between]
  simp [shorter, next, shorter']

theorem manyAfter_of_ends (next : p middle = .absent) :
    manyAfter p separator s = .found [] s := by
  rw [manyAfter, between]
  simp [shorter, next]

end Rounds

theorem Carries.manyAfter (carries : Carries t p q) (between : Carries t separator separator') :
    Carries t (manyAfter p separator) (manyAfter q separator') where
  found {s as rest} there := by
    have longer {r s : List Char} (h : r.length < s.length) :
        (r ++ t).length < (s ++ t).length := by
      simp only [List.length_append]
      omega
    fun_induction Scanner.manyAfter p separator s generalizing as with
    | case1 s _ middle here shorter a next found shorter' ih =>
        obtain ⟨others, more, rfl⟩ := Step.map_eq_found.mp there
        rw [manyAfter_of_round (between.found here) (longer shorter) (carries.found found)
          (longer shorter'), ih more]
        rfl
    | case3 s _ middle here shorter ends =>
        cases there
        exact manyAfter_of_ends (between.found here) (longer shorter) (carries.absent ends)
    | case7 s ends =>
        cases there
        exact manyAfter_of_absent (between.absent ends)
    | _ => cases there
  absent ends := absurd ends (manyAfter_ne_absent p separator _)

theorem Carries.separated1 (carries : Carries t p q) (between : Carries t separator separator') :
    Carries t (separated1 p separator) (separated1 q separator') :=
  carries.bind fun a => (carries.manyAfter between).map (a :: ·)

theorem separated_eq_orElse (p : Scanner α) (separator : Scanner Unit) :
    separated p separator = orElse (separated1 p separator) (pure []) := by
  funext s
  unfold separated orElse
  cases separated1 p separator s <;> rfl

theorem Carries.separated (carries : Carries t p q) (between : Carries t separator separator') :
    Carries t (separated p separator) (separated q separator') := by
  rw [separated_eq_orElse, separated_eq_orElse]
  exact (carries.separated1 between).orElse (.pure [])

end Repetitions

end Scanner
end RuncardReview
