import Mathlib.Data.List.TakeWhile
import RuncardReview.Text.Pieces

/-!
# Trimmed texts and lists of them

Blanks around a text are lost when it is trimmed, and a text is trimmed away altogether if it
holds nothing else.  A list that is written by hand is cut into pieces first, and then each piece
is trimmed, so a piece counts as an item exactly if it is not blank.

**Results.**
* `trimChars_padded`, `trimChars_split`: a text with blanks around it.
* `trimChars_eq_nil_iff`: the texts that are trimmed away.
* `items_eq_filterMap`: the items of a list, piece by piece.
* `items_append_cons`, `items_append_blanks`: lists that are put together, and blanks at the end.
* `items_intercalate`: the items of joined pieces.
-/

namespace RuncardReview
namespace Text

/-! ## Trimming -/

section Trimming

variable {b b' s : List Char}

theorem trimChars_padded (front : ∀ c ∈ b, isBlank c = true) (back : ∀ c ∈ b', isBlank c = true) :
    trimChars (b ++ (s ++ b')) = trimChars s := by
  have back' : ∀ c ∈ b'.reverse, isBlank c = true := fun c hc => back c (List.mem_reverse.mp hc)
  rw [trimChars, List.dropWhile_append_of_pos front, trimChars]
  by_cases all : ∀ c ∈ s, isBlank c = true
  · have none : s.dropWhile isBlank = [] := List.dropWhile_eq_nil_iff.mpr all
    have none' : b'.dropWhile isBlank = [] := List.dropWhile_eq_nil_iff.mpr back
    rw [List.dropWhile_append_of_pos all, none, none']
  · have keeps : (s ++ b').dropWhile isBlank = s.dropWhile isBlank ++ b' := by
      rw [List.dropWhile_append]
      have : (s.dropWhile isBlank).isEmpty = false := by
        rw [Bool.eq_false_iff, ne_eq, List.isEmpty_iff, List.dropWhile_eq_nil_iff]
        exact all
      simp [this]
    rw [keeps, List.reverse_append, List.dropWhile_append_of_pos back']

/-- A text is its trimmed form with blanks around it. -/
theorem trimChars_split (s : List Char) :
    ∃ b b', (∀ c ∈ b, isBlank c = true) ∧ (∀ c ∈ b', isBlank c = true) ∧
      s = b ++ (trimChars s ++ b') := by
  have run : ∀ t : List Char, ∀ c ∈ t.takeWhile isBlank, isBlank c = true := fun t c hc =>
    List.all_eq_true.mp List.all_takeWhile c hc
  refine ⟨s.takeWhile isBlank, ((s.dropWhile isBlank).reverse.takeWhile isBlank).reverse,
    run s, fun c hc => run _ c (List.mem_reverse.mp hc), ?_⟩
  rw [trimChars, ← List.reverse_append, List.takeWhile_append_dropWhile, List.reverse_reverse,
    List.takeWhile_append_dropWhile]

theorem trimChars_trimChars (s : List Char) :
    trimChars (trimChars s) = trimChars s := by
  obtain ⟨b, b', front, back, split⟩ := trimChars_split s
  have padded := trimChars_padded (s := trimChars s) front back
  rw [← split] at padded
  exact padded.symm

theorem trimChars_eq_nil_iff :
    trimChars s = [] ↔ ∀ c ∈ s, isBlank c = true := by
  constructor
  · intro none c hc
    obtain ⟨b, b', front, back, split⟩ := trimChars_split s
    rw [split, none, List.nil_append] at hc
    exact (List.mem_append.mp hc).elim (front c) (back c)
  · intro all
    have padded : trimChars (s ++ ([] ++ [])) = trimChars [] := trimChars_padded all (by simp)
    simpa [trimChars] using padded

end Trimming

/-! ## Items -/

section Items

variable {sep : Char} {b p s : List Char} {t : String}

/-- The item that a piece of a list stands for, if it is not blank. -/
def item? (p : List Char) : Option String :=
  if trimChars p = [] then none else some (String.ofList (trimChars p))

theorem item?_eq_none_iff :
    item? p = none ↔ ∀ c ∈ p, isBlank c = true := by
  simp [item?, trimChars_eq_nil_iff]

theorem item?_eq_some_iff :
    item? p = some t ↔ (∃ c ∈ p, isBlank c = false) ∧ t = String.ofList (trimChars p) := by
  have some_blank : (∃ c ∈ p, isBlank c = false) ↔ trimChars p ≠ [] := by
    simp [trimChars_eq_nil_iff]
  rw [some_blank, item?]
  by_cases none : trimChars p = []
  · simp [none]
  · simp [none, eq_comm]

theorem item?_append_blanks (blank : ∀ c ∈ b, isBlank c = true) :
    item? (p ++ b) = item? p := by
  have padded : trimChars (p ++ b) = trimChars p := trimChars_padded (b := []) (by simp) blank
  rw [item?, item?, padded]

theorem items_eq_filterMap (sep : Char) (s : List Char) :
    items sep s = (s.splitOn sep).filterMap item? := by
  have one : ∀ pieces : List (List Char),
      ((pieces.map trimChars).filter fun p => !p.isEmpty).map String.ofList =
        pieces.filterMap item? := by
    intro pieces
    induction pieces with
    | nil => rfl
    | cons p pieces ih => by_cases blank : trimChars p = [] <;> simp [item?, blank, ih]
  exact one _

theorem items_append_cons (p s : List Char) :
    items sep (p ++ sep :: s) = items sep p ++ items sep s := by
  simp only [items_eq_filterMap, List.splitOn_append_cons_self, List.filterMap_append]

theorem items_of_not_mem (whole : sep ∉ p) :
    items sep p = (item? p).toList := by
  rw [items_eq_filterMap, List.splitOn_eq_singleton whole]
  cases found : item? p with
  | none => simp [found]
  | some t => simp [found]

/-- Blanks at the end of a list belong to its last piece. -/
theorem items_append_blanks (plain : isBlank sep = false) (blank : ∀ c ∈ b, isBlank c = true) :
    items sep (s ++ b) = items sep s := by
  have apart : sep ∉ b := fun h => by simp [blank sep h] at plain
  have last : ∀ {p}, sep ∉ p → items sep (p ++ b) = items sep p := by
    intro p whole
    rw [items_of_not_mem (by simp [whole, apart]), items_of_not_mem whole,
      item?_append_blanks blank]
  by_cases cut : sep ∈ s
  · obtain ⟨p, front, split, whole⟩ := List.eq_append_cons_of_mem (List.mem_reverse.mpr cut)
    have split : s = front.reverse ++ sep :: p.reverse := by
      rw [← List.reverse_reverse s, split]
      simp
    have whole : sep ∉ p.reverse := mt List.mem_reverse.mp whole
    rw [split, List.append_assoc, List.cons_append, items_append_cons, items_append_cons,
      last whole]
  · exact last cut

theorem items_intercalate {pieces : List (List Char)} (whole : ∀ p ∈ pieces, sep ∉ p) :
    items sep ([sep].intercalate pieces) = pieces.filterMap item? := by
  by_cases none : pieces = []
  · subst none
    rfl
  · rw [items_eq_filterMap, List.splitOn_intercalate sep whole none]

end Items

end Text
end RuncardReview
