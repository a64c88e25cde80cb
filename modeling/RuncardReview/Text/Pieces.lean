import RuncardReview.Text.Blank

/-!
# Cutting text into pieces

A text is cut at the first occurrence of a character, or at every one.  The
pieces of a list that people write by hand are trimmed and the empty ones are
dropped, so stray separators and blanks do not matter.
-/

namespace RuncardReview
namespace Text

/-- The text before and after the first `c`, if there is one. -/
def cutAt (c : Char) : List Char → Option (List Char × List Char)
  | [] => none
  | x :: xs =>
      if x = c then some ([], xs)
      else (cutAt c xs).map fun p => (x :: p.1, p.2)

theorem cutAt_found {c : Char} {w : List Char} (fresh : ∀ x ∈ w, x ≠ c) (s : List Char) :
    cutAt c (w ++ c :: s) = some (w, s) := by
  induction w with
  | nil => simp [cutAt]
  | cons x w ih =>
      have ih := ih fun y hy => fresh y (List.mem_cons_of_mem x hy)
      simp [cutAt, fresh x List.mem_cons_self, ih]

theorem cutAt_none {c : Char} {w : List Char} (fresh : ∀ x ∈ w, x ≠ c) :
    cutAt c w = none := by
  induction w with
  | nil => rfl
  | cons x w ih =>
      have ih := ih fun y hy => fresh y (List.mem_cons_of_mem x hy)
      simp [cutAt, fresh x List.mem_cons_self, ih]

/-- The trimmed pieces between the separators, the empty ones dropped. -/
def items (sep : Char) (s : List Char) : List String :=
  (((s.splitOn sep).map trimChars).filter fun p => !p.isEmpty).map String.ofList

/-- The trimmed, non-empty pieces of a comma-joined list. -/
def commaItems (s : String) : List String :=
  items ',' s.toList

/-- Whether `p` occurs in the text as a contiguous piece. -/
def occursIn (p : List Char) : List Char → Bool
  | [] => p.isEmpty
  | c :: cs => p.isPrefixOf (c :: cs) || occursIn p cs

/-- The text with the ASCII letters in lower case. -/
def lowerAscii (s : String) : String :=
  String.ofList (s.toList.map Char.toLower)

end Text
end RuncardReview
