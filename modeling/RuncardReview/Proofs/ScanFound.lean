import Mathlib.Data.List.Basic
import RuncardReview.Scan

/-!
# What scanners find in a written text

Each scanner is followed along a text that begins with its construct.  Where the
construct is a run of characters, the run has to be the longest one: what comes after
it must not carry it on.

**Results.**
* `span_found`, `span1_found`, `word_found`: the scanners of characters.
* `many_found`: constructs written one after the other.
* `separated_found`: constructs written with separators between them.
-/

namespace RuncardReview

/-- Items written one after the other. -/
inductive Sequence {α : Type} (item : α → List Char → Prop) : List α → List Char → Prop
  | nil : Sequence item [] []
  | cons {a : α} {as : List α} {t ts : List Char} :
      item a t → Sequence item as ts → Sequence item (a :: as) (t ++ ts)

/-- One item or more, written with separators between them. -/
inductive Separated {α : Type} (separator : List Char → Prop) (item : α → List Char → Prop) :
    List α → List Char → Prop
  | one {a : α} {t : List Char} : item a t → Separated separator item [a] t
  | cons {a : α} {as : List α} {t s ts : List Char} :
      item a t → separator s → Separated separator item as ts →
      Separated separator item (a :: as) (t ++ (s ++ ts))

/-- A separated list begins with one of its items, and a separator or nothing is next. -/
theorem Separated.front {α : Type} {separator : List Char → Prop} {item : α → List Char → Prop}
    {as : List α} {ts : List Char} (written : Separated separator item as ts) :
    ∃ a t rest, a ∈ as ∧ item a t ∧ ts = t ++ rest ∧
      (rest = [] ∨ ∃ s rest', separator s ∧ rest = s ++ rest') := by
  cases written with
  | @one a _ only => exact ⟨a, ts, [], by simp, only, by simp, Or.inl rfl⟩
  | @cons a as t s ts first sep others =>
      exact ⟨a, t, s ++ ts, by simp, first, rfl, Or.inr ⟨s, ts, sep, rfl⟩⟩

/-- No item is longer than the list it stands in. -/
theorem Separated.bounded {α : Type} {separator : List Char → Prop}
    {item : α → List Char → Prop} {as : List α} {ts : List Char} {n : Nat}
    (written : Separated separator item as ts) (fits : ts.length ≤ n) :
    Separated separator (fun a t => item a t ∧ t.length ≤ n) as ts := by
  induction written with
  | one only => exact .one ⟨only, fits⟩
  | cons first sep _ ih =>
      simp only [List.length_append] at fits
      exact .cons ⟨first, by omega⟩ sep (ih (by omega))

/-- The text does not carry on a run of characters of a class. -/
def Stops (c : Char → Bool) (s : List Char) : Prop :=
  ∀ x ∈ s.head?, c x = false

section Runs

variable {c : Char → Bool} {w s : List Char}

@[simp] theorem stops_nil :
    Stops c [] := by
  simp [Stops]

@[simp] theorem stops_cons {x : Char} :
    Stops c (x :: s) ↔ c x = false := by
  simp [Stops]

theorem stops_dropWhile (c : Char → Bool) (s : List Char) :
    Stops c (s.dropWhile c) := by
  intro x hx
  have other := List.head?_dropWhile_not c s
  rw [Option.mem_def.mp hx] at other
  simpa using other

theorem takeWhile_of_stops (run : ∀ x ∈ w, c x = true) (stop : Stops c s) :
    (w ++ s).takeWhile c = w := by
  rw [List.takeWhile_append_of_pos run]
  cases s with
  | nil => simp
  | cons x s => simp [stops_cons.mp stop]

theorem dropWhile_of_stops (run : ∀ x ∈ w, c x = true) (stop : Stops c s) :
    (w ++ s).dropWhile c = s := by
  rw [List.dropWhile_append_of_pos run]
  cases s with
  | nil => rfl
  | cons x s => simp [stops_cons.mp stop]

/-- A run of one class and after it a run of a wider one are one run of the wider. -/
theorem takeWhile_wider {d : Char → Bool} (wider : ∀ x, c x = true → d x = true) :
    s.takeWhile c ++ (s.dropWhile c).takeWhile d = s.takeWhile d := by
  induction s with
  | nil => rfl
  | cons x s ih =>
      by_cases h : c x = true
      · simp [h, wider x h, ih]
      · simp [h]

theorem dropWhile_wider {d : Char → Bool} (wider : ∀ x, c x = true → d x = true) :
    (s.dropWhile c).dropWhile d = s.dropWhile d := by
  induction s with
  | nil => rfl
  | cons x s ih =>
      by_cases h : c x = true
      · simp [h, wider x h, ih]
      · simp [h]

end Runs

namespace Scanner

variable {α β : Type} {p : Scanner α} {s rest : List Char} {a : α}

theorem bind_found {f : α → Scanner β} (h : p s = .found a rest) :
    (p >>= f) s = f a rest := by
  show (p s).andThen f = f a rest
  rw [h]
  rfl

theorem bind_absent {f : α → Scanner β} (h : p s = .absent) :
    (p >>= f) s = .absent := by
  show (p s).andThen f = .absent
  rw [h]
  rfl

theorem map_found (f : α → β) (h : p s = .found a rest) :
    (f <$> p) s = .found (f a) rest :=
  bind_found h

theorem map_absent (f : α → β) (h : p s = .absent) :
    (f <$> p) s = .absent :=
  bind_absent h

theorem orElse_found {q : Scanner α} (h : p s = .found a rest) :
    orElse p q s = .found a rest := by
  simp [orElse, h]

theorem orElse_absent {q : Scanner α} (h : p s = .absent) :
    orElse p q s = q s := by
  simp [orElse, h]

theorem opt_found (h : p s = .found a rest) :
    opt p s = .found (some a) rest := by
  simp [opt, h, Step.map, Step.andThen]

theorem opt_absent (h : p s = .absent) :
    opt p s = .found none s := by
  simp [opt, h]

theorem require_found (h : p s = .found a rest) :
    require p s = .found a rest := by
  simp [require, h]

theorem expecting_found {what : String} (h : p s = .found a rest) :
    expecting what p s = .found a rest := by
  simp [expecting, h]

theorem expecting_absent {what : String} (h : p s = .absent) :
    expecting what p s = .absent := by
  simp [expecting, h]

/-! ## Characters -/

section Characters

variable {c : Char → Bool} {w : List Char}

theorem span_apply (c : Char → Bool) (s : List Char) :
    span c s = .found (s.takeWhile c) (s.dropWhile c) := by
  rfl

theorem span_found (run : ∀ x ∈ w, c x = true) (stop : Stops c s) :
    span c (w ++ s) = .found w s := by
  rw [span_apply, takeWhile_of_stops run stop, dropWhile_of_stops run stop]

theorem span1_found (some : w ≠ []) (run : ∀ x ∈ w, c x = true) (stop : Stops c s) :
    span1 c (w ++ s) = .found w s := by
  simp [span1, takeWhile_of_stops run stop, dropWhile_of_stops run stop, some]

theorem span1_absent (stop : Stops c s) :
    span1 c s = .absent := by
  cases s with
  | nil => rfl
  | cons x s => simp [span1, stops_cons.mp stop]

@[simp] theorem char_found (x : Char) (s : List Char) :
    char x (x :: s) = .found () s := by
  simp [char]

theorem char_absent {x : Char} (other : s.head? ≠ some x) :
    char x s = .absent := by
  cases s with
  | nil => rfl
  | cons y s =>
      have : y ≠ x := fun e => other (by rw [e]; rfl)
      simp [char, this]

theorem word_found (w s : List Char) :
    word w (w ++ s) = .found () s := by
  induction w with
  | nil => rfl
  | cons x w ih => simpa [word, Step.andThen] using ih

theorem word_absent {x : Char} (front : w.head? = some x) (other : s.head? ≠ some x) :
    word w s = .absent := by
  cases w with
  | nil => cases front
  | cons y w =>
      obtain rfl := Option.some.inj front
      exact bind_absent (char_absent other)

end Characters

/-! ## Repetitions -/

theorem many_of_found (h : p s = .found a rest) (shorter : rest.length < s.length) :
    many p s = (many p rest).map (a :: ·) := by
  rw [many, h]
  simp [shorter]

theorem many_of_absent (h : p s = .absent) :
    many p s = .found [] s := by
  rw [many, h]

/-- Constructs written one after the other are found as often as they are written.
`Next` is what each of them has to be followed by. -/
theorem many_found {item : α → List Char → Prop} (Next : List Char → Prop)
    {as : List α} {ts : List Char}
    (found : ∀ {a t rest}, a ∈ as → item a t → Next rest → p (t ++ rest) = .found a rest)
    (some : ∀ {a t}, a ∈ as → item a t → t ≠ [])
    (begins : ∀ {a t}, a ∈ as → item a t → ∀ rest, Next (t ++ rest))
    (written : Sequence item as ts) (next : Next rest) (last : p rest = .absent) :
    many p (ts ++ rest) = .found as rest := by
  induction written with
  | nil => exact many_of_absent last
  | @cons a as t ts first others ih =>
      have follows : Next (ts ++ rest) := by
        cases others with
        | nil => exact next
        | cons second _ =>
            rw [List.append_assoc]
            exact begins (by simp) second _
      have shorter : (ts ++ rest).length < (t ++ (ts ++ rest)).length := by
        have := List.length_pos_of_ne_nil (some List.mem_cons_self first)
        simp only [List.length_append]
        omega
      have here := found List.mem_cons_self first follows
      rw [List.append_assoc, many_of_found here shorter,
        ih (fun m => found (List.mem_cons_of_mem a m)) (fun m => some (List.mem_cons_of_mem a m))
          fun m => begins (List.mem_cons_of_mem a m)]
      rfl

theorem manyAfter_of_absent {separator : Scanner Unit} (h : separator s = .absent) :
    manyAfter p separator s = .found [] s := by
  rw [manyAfter, h]

/-- After a separator the rest of a separated list is a separated list. -/
theorem manyAfter_of_found {separator : Scanner Unit} {middle : List Char}
    (first : separator s = .found () middle) (shorter : middle.length < s.length)
    (second : p middle = .found a rest) (shorter' : rest.length < middle.length) :
    manyAfter p separator s = separated1 p separator middle := by
  have total : rest.length < s.length := Nat.lt_trans shorter' shorter
  rw [manyAfter, first, separated1, second]
  simp [shorter, second, total, Step.andThen]

/-- Constructs written with separators between them are found one by one.  `Next` is
what each of them has to be followed by. -/
theorem separated1_found {separator : Scanner Unit} {between : List Char → Prop}
    {item : α → List Char → Prop} (Next : List Char → Prop)
    {as : List α} {ts : List Char}
    (found : ∀ {a t rest}, a ∈ as → item a t → Next rest → p (t ++ rest) = .found a rest)
    (some : ∀ {a t}, a ∈ as → item a t → t ≠ [])
    (comma : ∀ {s a t}, between s → a ∈ as → item a t → ∀ rest,
      separator (s ++ (t ++ rest)) = .found () (t ++ rest))
    (someBetween : ∀ {s}, between s → s ≠ [])
    (apart : ∀ {s}, between s → ∀ rest, Next (s ++ rest))
    (written : Separated between item as ts) (next : Next rest)
    (last : separator rest = .absent) :
    separated1 p separator (ts ++ rest) = .found as rest := by
  induction written with
  | one only =>
      rw [separated1, found List.mem_cons_self only next]
      simp [Step.andThen, manyAfter_of_absent last, Step.map]
  | @cons a as t s ts first sep others ih =>
      have ih := ih (fun m => found (List.mem_cons_of_mem a m))
        (fun m => some (List.mem_cons_of_mem a m)) fun sep m => comma sep (List.mem_cons_of_mem a m)
      have here := found List.mem_cons_self first (apart sep (ts ++ rest))
      obtain ⟨b, u, us, member, more, rfl, follows⟩ := others.front
      have next : Next (us ++ rest) := by
        rcases follows with rfl | ⟨s', us', sep', rfl⟩
        · exact next
        · rw [List.append_assoc]
          exact apart sep' (us' ++ rest)
      have second : p (u ++ (us ++ rest)) = .found b (us ++ rest) :=
        found (List.mem_cons_of_mem a member) more next
      have separated := comma sep (List.mem_cons_of_mem a member) more (us ++ rest)
      have positive := List.length_pos_of_ne_nil (some (List.mem_cons_of_mem a member) more)
      have positive' := List.length_pos_of_ne_nil (someBetween sep)
      have shorter : (us ++ rest).length < (u ++ (us ++ rest)).length := by
        simp only [List.length_append]
        omega
      have shorter' : (u ++ (us ++ rest)).length < (s ++ (u ++ (us ++ rest))).length := by
        simp only [List.length_append]
        omega
      rw [List.append_assoc u] at here ih
      rw [List.append_assoc, List.append_assoc, List.append_assoc, separated1, here]
      show (manyAfter p separator (s ++ (u ++ (us ++ rest)))).map (a :: ·) = _
      rw [manyAfter_of_found separated shorter' second shorter, ih]
      rfl

theorem separated_found {separator : Scanner Unit} {as : List α}
    (h : separated1 p separator s = .found as rest) :
    separated p separator s = .found as rest := by
  simp [separated, h]

theorem separated_absent (separator : Scanner Unit) (h : p s = .absent) :
    separated p separator s = .found [] s := by
  simp [separated, separated1, h, Step.andThen]

end Scanner
end RuncardReview
