import RuncardReview.Proofs.ScanCarried
import RuncardReview.Proofs.ScanFront

/-!
# Scans that come to an end

A repetition goes on for ever if its rounds may find something without taking up any text.  It
does not if what a round finds takes up a part of the text that is not empty.  Then a repetition is
a finite number of rounds, each on a shorter text than the one before, and the text goes on behind
the last of them, where the next round found nothing.

The lemmas follow the combinators.  A scanner is `Steady` on texts up to a length if it does not
come to a halt there and leaves an end of the text; it is `Progressive` if it is steady on every
text and takes up some of it as well, for which one of its parts is enough.  The bound on the length
is for scanners that nest: behind an opening bracket the text is shorter, and less depth will do.

**Results.**
* `rounds_many`: a repetition and its rounds.
* `manyAfter_eq_many`: the items of a list behind the first, as a repetition.
* `Steady.bind`, `Steady.orElse`, `Steady.many`, `Steady.separated`: steady scanners, made from
  others.
* `Progressive.bind`, `Steady.bind_progressive`, `Progressive.orElse`: progressive ones.
* `Progressive.settles_bind`: what is behind a progressive scanner has less text.
* `Extends.bind`, `Extends.separated`: more depth changes nothing but halts.
-/

namespace RuncardReview
namespace Scanner

variable {α β : Type} {n : ℕ} {p q : Scanner α} {f : α → Scanner β}

/-- What the scanner finds leaves an end of the text. -/
def Leaves (p : Scanner α) : Prop :=
  Reads p fun _ _ => True

/-- What the scanner finds takes up some of the text and leaves the end of it. -/
def Advances (p : Scanner α) : Prop :=
  Reads p fun _ t => t ≠ []

/-- On texts up to a length the scanner does not come to a halt. -/
def Settles (n : ℕ) (p : Scanner α) : Prop :=
  ∀ s, s.length ≤ n → p s ≠ .stuck

structure Steady (n : ℕ) (p : Scanner α) : Prop where
  leaves : Leaves p
  settles : Settles n p

structure Progressive (p : Scanner α) : Prop where
  advances : Advances p
  steady : ∀ n, Steady n p

theorem Reads.leaves {R : α → List Char → Prop} (reads : Reads p R) :
    Leaves p :=
  reads.imp fun _ _ _ => trivial

theorem Leaves.length_le (leaves : Leaves p) {s rest : List Char} {a : α}
    (found : p s = .found a rest) :
    rest.length ≤ s.length := by
  obtain ⟨t, rfl, -⟩ := leaves s a rest found
  simp

theorem Advances.shortens (advances : Advances p) :
    Shortens p := by
  intro s a rest found
  obtain ⟨t, rfl, some⟩ := advances s a rest found
  have := List.length_pos_iff.mpr some
  simp only [List.length_append]
  omega

/-! ## Rounds -/

/-- The rounds of a repetition from a text on, and what they come to.  The repetition ends where a
round finds nothing, at the place from which that round began, or fails where a round breaks off. -/
inductive Rounds (p : Scanner α) : List Char → Step (List α) → Prop
  | ends {s : List Char} : p s = .absent → Rounds p s (.found [] s)
  | breaks {s rest : List Char} {expected : List String} :
      p s = .broken rest expected → Rounds p s (.broken rest expected)
  | round {s t middle : List Char} {a : α} {others : Step (List α)} :
      p s = .found a middle → s = t ++ middle → t ≠ [] → Rounds p middle others →
      Rounds p s (others.map (a :: ·))

theorem rounds_many (advances : Advances p) (settles : Settles n p) {s : List Char}
    (short : s.length ≤ n) :
    Rounds p s (many p s) := by
  fun_induction many p s with
  | case1 s a middle here shorter ih =>
      obtain ⟨t, split, some⟩ := advances s a middle here
      exact .round here split some (ih (by omega))
  | case2 s a middle here stays => exact absurd (advances.shortens s a middle here) stays
  | case3 s ends => exact .ends ends
  | case4 s rest expected breaks => exact .breaks breaks
  | case5 s halts => exact absurd halts (settles s short)

theorem Rounds.ne_stuck {s : List Char} {outcome : Step (List α)} (rounds : Rounds p s outcome) :
    outcome ≠ .stuck := by
  induction rounds with
  | ends | breaks => simp
  | @round _ _ _ _ others _ _ _ _ ih => cases others <;> simp_all [Step.map, Step.andThen]

/-! ## Sequence and choice -/

theorem Advances.bind (first : Advances p) (second : ∀ a, Leaves (f a)) :
    Advances (p >>= f) :=
  Reads.bind first fun a _ some => (second a).imp fun _ _ _ => by simp [some]

theorem bind_ne_stuck {s : List Char} (first : p s ≠ .stuck)
    (second : ∀ a rest, p s = .found a rest → f a rest ≠ .stuck) :
    (p >>= f) s ≠ .stuck := by
  show (p s).andThen f ≠ .stuck
  cases here : p s with
  | found a rest => exact second a rest here
  | stuck => exact absurd here first
  | _ => simp [Step.andThen]

/-- Behind a scanner that takes up some text, the others have less of it. -/
theorem Progressive.settles_bind (first : Progressive p)
    (second : ∀ a m, m < n → Settles m (f a)) :
    Settles n (p >>= f) := by
  intro s short
  refine bind_ne_stuck ((first.steady n).settles s short) fun a rest found => ?_
  have shorter := first.advances.shortens s a rest found
  exact second a rest.length (by omega) rest (Nat.le_refl _)

namespace Steady

theorem pure (a : α) :
    Steady n (Pure.pure a) :=
  ⟨(Reads.pure (R := fun _ _ => True) trivial).leaves, fun _ _ => nofun⟩

theorem bind (first : Steady n p) (second : ∀ a, Steady n (f a)) :
    Steady n (p >>= f) := by
  refine ⟨Reads.then first.leaves fun a => (second a).leaves, fun s short => ?_⟩
  refine bind_ne_stuck (first.settles s short) fun a rest found => ?_
  exact (second a).settles rest (Nat.le_trans (first.leaves.length_le found) short)

theorem map (f : α → β) (steady : Steady n p) :
    Steady n (f <$> p) :=
  steady.bind fun a => .pure (f a)

theorem orElse (first : Steady n p) (second : Steady n q) :
    Steady n (orElse p q) := by
  refine ⟨Reads.orElse first.leaves second.leaves, fun s short => ?_⟩
  have here := first.settles s short
  have there := second.settles s short
  unfold Scanner.orElse
  split <;> assumption

theorem opt (steady : Steady n p) :
    Steady n (opt p) := by
  refine ⟨(Reads.opt steady.leaves).leaves, fun s short => ?_⟩
  have here := steady.settles s short
  unfold Scanner.opt
  cases found : p s <;> simp_all [Step.map, Step.andThen]

theorem require (steady : Steady n p) :
    Steady n (require p) := by
  refine ⟨Reads.require steady.leaves, fun s short => ?_⟩
  have here := steady.settles s short
  unfold Scanner.require
  cases found : p s <;> simp_all

theorem expecting (what : String) (steady : Steady n p) :
    Steady n (expecting what p) := by
  refine ⟨Reads.expecting what steady.leaves, fun s short => ?_⟩
  have here := steady.settles s short
  unfold Scanner.expecting
  cases found : p s <;> simp_all

/-! ## Characters -/

theorem span (c : Char → Bool) :
    Steady n (span c) :=
  ⟨(Reads.span c).leaves, fun _ _ => nofun⟩

theorem span1 (c : Char → Bool) :
    Steady n (span1 c) := by
  refine ⟨(Reads.span1 c).leaves, fun s _ => ?_⟩
  unfold Scanner.span1
  split <;> simp

theorem char (c : Char) :
    Steady n (char c) := by
  refine ⟨(Reads.char c).leaves, fun s _ => ?_⟩
  cases s with
  | nil => simp [Scanner.char]
  | cons x s => by_cases same : x = c <;> simp [Scanner.char, same]

theorem word (w : List Char) :
    Steady n (word w) := by
  induction w with
  | nil => exact ⟨(Reads.word []).leaves, fun _ _ => nofun⟩
  | cons c w ih => exact (char c).bind fun _ => ih

theorem atEnd :
    Steady n atEnd := by
  refine ⟨fun s u rest found => ?_, fun s _ => ?_⟩
  · cases s with
    | nil =>
        cases found
        exact ⟨[], rfl, trivial⟩
    | cons x s => cases found
  · cases s <;> simp [Scanner.atEnd]

theorem remainder :
    Steady n remainder := by
  refine ⟨?_, fun _ _ => nofun⟩
  rintro s _ _ ⟨⟩
  exact ⟨s, by simp, trivial⟩

end Steady

namespace Progressive

theorem bind (first : Progressive p) (second : ∀ a n, Steady n (f a)) :
    Progressive (p >>= f) where
  advances := first.advances.bind fun a => (second a 0).leaves
  steady n := (first.steady n).bind fun a => second a n

theorem orElse (first : Progressive p) (second : Progressive q) :
    Progressive (orElse p q) where
  advances := Reads.orElse first.advances second.advances
  steady n := (first.steady n).orElse (second.steady n)

theorem span1 (c : Char → Bool) :
    Progressive (span1 c) where
  advances := (Reads.span1 c).imp fun _ _ ⟨same, full, _⟩ => same ▸ full
  steady _ := .span1 c

theorem char (c : Char) :
    Progressive (char c) where
  advances := (Reads.char c).imp fun _ _ only => by simp [only]
  steady _ := .char c

theorem word {w : List Char} (some : w ≠ []) :
    Progressive (word w) where
  advances := (Reads.word w).imp fun _ _ only => only ▸ some
  steady _ := .word w

theorem anyChar :
    Progressive anyChar := by
  have advances : Advances Scanner.anyChar := by
    intro s c rest found
    cases s with
    | nil => cases found
    | cons x s =>
        cases found
        exact ⟨[c], rfl, by simp⟩
  refine ⟨advances, fun n => ⟨Reads.leaves advances, fun s _ => ?_⟩⟩
  cases s <;> simp [Scanner.anyChar]

end Progressive

/-- The text may first go on with something that need not be there. -/
theorem Steady.bind_progressive (first : ∀ n, Steady n p) (second : ∀ a, Progressive (f a)) :
    Progressive (p >>= f) where
  advances := (first 0).leaves.bind fun a _ _ =>
    (second a).advances.imp fun _ _ some => by simp [some]
  steady n := (first n).bind fun a => (second a).steady n

/-! ## Repetitions -/

section Repetitions

variable {separator : Scanner Unit}

theorem Steady.many (steady : Steady n p) (advances : Advances p) :
    Steady n (many p) where
  leaves := (Reads.many steady.leaves).leaves
  settles _ short := (rounds_many advances steady.settles short).ne_stuck

/-- The items of a list behind the first come in rounds of a separator and an item. -/
theorem manyAfter_eq_many (advances : Advances separator) (leaves : Leaves p) :
    manyAfter p separator = Scanner.many (separator >>= fun _ => p) := by
  funext s
  fun_induction manyAfter p separator s with
  | case1 s _ middle here shorter a rest next shorter' ih =>
      rw [ih, many_of_found ((bind_found here).trans next) shorter']
  | case2 s _ middle here shorter a rest next stays =>
      -- The separator has taken up some of the text, and the item gives nothing back.
      have := leaves.length_le next
      omega
  | case3 s _ middle here _ ends => rw [many_of_absent ((bind_found here).trans ends)]
  | case4 s _ middle here _ rest expected breaks =>
      have broken : (separator >>= fun _ => p) s = .broken rest expected :=
        (bind_found here).trans breaks
      rw [Scanner.many, broken]
  | case5 s _ middle here _ halts =>
      have stuck : (separator >>= fun _ => p) s = .stuck := (bind_found here).trans halts
      rw [Scanner.many, stuck]
  | case6 s _ middle here stays => exact absurd (advances.shortens s _ middle here) stays
  | case7 s ends => rw [many_of_absent (bind_absent ends)]
  | case8 s rest expected breaks =>
      have broken : (separator >>= fun _ => p) s = .broken rest expected := by
        show (separator s).andThen _ = _
        rw [breaks]
        rfl
      rw [Scanner.many, broken]
  | case9 s halts =>
      have stuck : (separator >>= fun _ => p) s = .stuck := by
        show (separator s).andThen _ = _
        rw [halts]
        rfl
      rw [Scanner.many, stuck]

theorem Steady.manyAfter (steady : Steady n p) (between : Progressive separator) :
    Steady n (manyAfter p separator) := by
  rw [manyAfter_eq_many between.advances steady.leaves]
  have round : Steady n (separator >>= fun _ => p) := (between.steady n).bind fun _ => steady
  exact round.many (between.advances.bind fun _ => steady.leaves)

theorem Steady.separated1 (steady : Steady n p) (between : Progressive separator) :
    Steady n (separated1 p separator) :=
  steady.bind fun a => (steady.manyAfter between).map (a :: ·)

theorem Steady.separated (steady : Steady n p) (between : Progressive separator) :
    Steady n (separated p separator) := by
  rw [separated_eq_orElse]
  exact (steady.separated1 between).orElse (.pure [])

end Repetitions

/-! ## Scanners with more depth -/

/-- The second scanner does what the first does wherever that does not come to a halt. -/
def Extends (p q : Scanner α) : Prop :=
  ∀ s, p s ≠ .stuck → q s = p s

namespace Extends

variable {p' q' : Scanner α} {g : α → Scanner β}

theorem refl (p : Scanner α) :
    Extends p p :=
  fun _ _ => rfl

theorem bind (first : Extends p q) (second : ∀ a, Extends (f a) (g a)) :
    Extends (p >>= f) (q >>= g) := by
  intro s going
  have here : p s ≠ .stuck := fun halts => going (by
    show (p s).andThen f = _
    rw [halts]
    rfl)
  show (q s).andThen g = (p s).andThen f
  rw [first s here]
  cases found : p s with
  | found a rest => exact second a rest fun halts => going ((bind_found found).trans halts)
  | _ => rfl

theorem orElse (first : Extends p q) (second : Extends p' q') :
    Extends (orElse p p') (orElse q q') := by
  intro s going
  unfold Scanner.orElse at going ⊢
  cases here : p s with
  | absent =>
      rw [first s (by simp [here]), here]
      exact second s (by simpa [here] using going)
  | stuck => simp [here] at going
  | _ => rw [first s (by simp [here]), here]

theorem expecting (what : String) (further : Extends p q) :
    Extends (expecting what p) (expecting what q) := by
  intro s going
  have here : p s ≠ .stuck := fun halts => going (by simp [Scanner.expecting, halts])
  rw [Scanner.expecting, Scanner.expecting, further s here]

section Repetitions

variable {separator : Scanner Unit}

theorem manyAfter (further : Extends p q) :
    Extends (manyAfter p separator) (manyAfter q separator) := by
  intro s going
  have same {t : List Char} {step : Step α} (here : p t = step) (goes : step ≠ .stuck) :
      q t = step :=
    (further t (here ▸ goes)).trans here
  fun_induction Scanner.manyAfter p separator s with
  | case1 s _ middle here shorter a rest next shorter' ih =>
      have more : Scanner.manyAfter p separator rest ≠ .stuck := fun halts =>
        going (by rw [halts]; rfl)
      rw [manyAfter_of_round here shorter (same next (by simp)) shorter', ih more]
  | case3 s _ middle here shorter ends => exact manyAfter_of_ends here shorter (same ends (by simp))
  | case4 s _ middle here shorter rest expected breaks =>
      rw [Scanner.manyAfter, here]
      simp [shorter, same breaks (by simp)]
  | case7 s ends => exact manyAfter_of_absent ends
  | case8 s rest expected breaks => rw [Scanner.manyAfter, breaks]
  | _ => exact absurd rfl going

theorem separated (further : Extends p q) :
    Extends (separated p separator) (separated q separator) := by
  rw [separated_eq_orElse, separated_eq_orElse]
  exact (further.bind fun a => further.manyAfter.bind fun as => .refl _).orElse (.refl _)

end Repetitions

end Extends

end Scanner
end RuncardReview
