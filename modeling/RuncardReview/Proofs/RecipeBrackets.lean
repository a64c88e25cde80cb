import Mathlib.Data.List.Forall2
import Mathlib.Data.List.TakeWhile
import RuncardReview.Chamber.Recipe
import RuncardReview.Proofs.ScanFound

/-!
# What the brackets of a recipe id ask for

A recipe id is read from the left.  What stands before an opening brace means nothing;
what stands between it and the next closing brace is the content of a bracket, and
behind that brace the reading goes on.  A content without its mark is empty, a list of
names in parentheses, or a row of letters, and stands for one or-set.  The scanners are
compared here with this description of a written recipe id.

**Results.**
* `scanned`: the contents that are found are those of the brackets.
* `orSet_found`: the content of a bracket is read as the or-set that it stands for.
* `orSets_found`: no recipe id is read by a default.
* `asks_orSets`: the or-sets of a recipe id are those that its brackets ask for.
-/

namespace RuncardReview
namespace Recipe

open Text Scanner

/-! ## The written form -/

/-- No brace that opens in the text is closed again. -/
def Bracketless (s : List Char) : Prop :=
  ∀ a x b, s ≠ a ++ '\x7b' :: (x ++ '\x7d' :: b)

/-- The contents of the brackets of a text, from the left. -/
inductive Brackets : List Char → List (List Char) → Prop
  | none {s : List Char} : Bracketless s → Brackets s []
  | some {a x b : List Char} {contents : List (List Char)} :
      '\x7b' ∉ a → '\x7d' ∉ x → Brackets b contents →
      Brackets (a ++ '\x7b' :: (x ++ '\x7d' :: b)) (x :: contents)

/-- The content of a bracket without its mark and the blanks around that. -/
def unmarked (content : List Char) : List Char :=
  let rest := content.dropWhile isSpacing
  (if rest.head? = some 'c' then rest.tail else rest).dropWhile isSpacing

/-- Names in parentheses, and nothing but blanks behind them. -/
inductive Named : List Char → List Char → Prop
  | mk {names blanks : List Char} : ')' ∉ names → (∀ c ∈ blanks, isSpacing c = true) →
      Named names ('(' :: (names ++ ')' :: blanks))

/-- The or-set for which the content of a bracket stands, when the mark is taken off. -/
inductive StandsFor : List Char → OrSet → Prop
  | any : StandsFor [] ["%%"]
  | names {y names : List Char} : Named names y → StandsFor y (items ';' names)
  | letters {y : List Char} : y ≠ [] → (∀ names, ¬Named names y) →
      StandsFor y ((y.filter fun c => !isBlank c).map fun c => String.ofList [c])

/-- The brackets of a recipe id ask for these or-sets, in this order. -/
def Asks (recipe : String) (sets : List OrSet) : Prop :=
  ∃ contents, Brackets recipe.toList contents ∧
    List.Forall₂ (fun content set => StandsFor (unmarked content) set) contents sets

/-! ## Brackets -/

section Contents

variable {s x b : List Char} {c : Char}

theorem avoids {stop : Char} (free : stop ∉ x) :
    ∀ d ∈ x, decide (d ≠ stop) = true := by
  intro d hd
  exact decide_eq_true fun e => free (e ▸ hd)

theorem span_until {stop : Char} (free : stop ∉ x) (b : List Char) :
    span (fun d => d ≠ stop) (x ++ stop :: b) = .found x (stop :: b) :=
  span_found (avoids free) (stops_cons.mpr (by simp))

theorem span_to_end {stop : Char} (free : stop ∉ x) :
    span (fun d => d ≠ stop) x = .found x [] := by
  simpa using span_found (avoids free) stops_nil

theorem bracket_found (inside : '\x7d' ∉ x) (b : List Char) :
    bracket ('\x7b' :: (x ++ '\x7d' :: b)) = .found x b := by
  rw [bracket, bind_found (char_found _ _), bind_found (span_until inside b),
    bind_found (char_found _ _)]
  rfl

/-- Where no brace opens, or one that stays open, there is no bracket. -/
theorem bracket_absent (outside : c ≠ '\x7b' ∨ '\x7d' ∉ s) :
    bracket (c :: s) = .absent := by
  rw [bracket]
  by_cases opens : c = '\x7b'
  · subst opens
    have unclosed : '\x7d' ∉ s := outside.resolve_left fun h => h rfl
    rw [bind_found (char_found _ _), bind_found (span_to_end unclosed)]
    exact bind_absent (char_absent (by simp))
  · exact bind_absent (char_absent (by simpa using opens))

theorem piece_bracket (inside : '\x7d' ∉ x) (b : List Char) :
    piece ('\x7b' :: (x ++ '\x7d' :: b)) = .found (some x) b :=
  orElse_found (map_found some (bracket_found inside b))

theorem piece_other (outside : c ≠ '\x7b' ∨ '\x7d' ∉ s) :
    piece (c :: s) = .found none s := by
  have absent := map_absent (some (α := List Char)) (bracket_absent outside)
  rw [piece, orElse_absent absent]
  rfl

theorem Bracketless.cons (h : Bracketless s) (outside : c ≠ '\x7b' ∨ '\x7d' ∉ s) :
    Bracketless (c :: s) := by
  intro a x b e
  cases a with
  | nil =>
      obtain ⟨rfl, rfl⟩ := List.cons.inj e
      rcases outside with other | unclosed
      · exact other rfl
      · exact unclosed (by simp)
  | cons d a => exact h a x b (List.cons.inj e).2

/-- A character that opens no bracket may stand in front. -/
theorem Brackets.cons {contents : List (List Char)} (h : Brackets s contents)
    (outside : c ≠ '\x7b' ∨ '\x7d' ∉ s) :
    Brackets (c :: s) contents := by
  cases h with
  | none bare => exact .none (bare.cons outside)
  | @some a x b contents before inside rest =>
      have other : c ≠ '\x7b' := outside.resolve_right fun unclosed => unclosed (by simp)
      refine Brackets.some (a := c :: a) ?_ inside rest
      simp [before, other.symm]

/-- The pieces that are found leave nothing, and the brackets among them are those of
the text. -/
theorem scanned (s : List Char) :
    ∃ pieces, many piece s = .found pieces [] ∧ Brackets s (pieces.filterMap id) := by
  induction h : s.length using Nat.strongRecOn generalizing s with
  | _ n ih =>
      subst h
      cases s with
      | nil =>
          refine ⟨[], many_of_absent rfl, .none ?_⟩
          intro a x b e
          simp at e
      | cons c s =>
          by_cases outside : c ≠ '\x7b' ∨ '\x7d' ∉ s
          · obtain ⟨pieces, found, brackets⟩ := ih s.length (by simp) s rfl
            refine ⟨none :: pieces, ?_, brackets.cons outside⟩
            rw [many_of_found (piece_other outside) (by simp), found]
            rfl
          · obtain ⟨opens, closed⟩ := not_or.mp outside
            obtain rfl := not_not.mp opens
            obtain ⟨x, b, rfl, inside⟩ := List.eq_append_cons_of_mem (not_not.mp closed)
            have shorter : b.length < ('\x7b' :: (x ++ '\x7d' :: b)).length := by
              simp only [List.length_cons, List.length_append]
              omega
            obtain ⟨pieces, found, brackets⟩ := ih b.length shorter b rfl
            refine ⟨some x :: pieces, ?_,
              Brackets.some (a := []) (by simp) inside brackets⟩
            rw [many_of_found (piece_bracket inside b) shorter, found]
            rfl

theorem exists_contents (s : List Char) :
    ∃ contents, whole? bracketContents s = some contents ∧ Brackets s contents := by
  obtain ⟨pieces, found, brackets⟩ := scanned s
  refine ⟨pieces.filterMap id, ?_, brackets⟩
  rw [whole?, bracketContents, bind_found found]
  rfl

end Contents

/-! ## Contents -/

section Sets

variable {y names : List Char} {set : OrSet}

theorem namedChambers_found (named : Named names y) :
    namedChambers y = .found (items ';' names) [] := by
  obtain ⟨inside, blank⟩ := named
  have blanks := span_found (c := isSpacing) blank stops_nil
  rw [List.append_nil] at blanks
  rw [namedChambers, bind_found (char_found _ _), bind_found (span_until inside _),
    bind_found (char_found _ _), bind_found blanks]
  rfl

theorem namedChambers_absent (unnamed : ∀ names, ¬Named names y) :
    namedChambers y = .absent := by
  rw [namedChambers]
  cases y with
  | nil => rfl
  | cons c s =>
      by_cases opens : c = '('
      · subst opens
        rw [bind_found (char_found _ _)]
        by_cases closed : ')' ∈ s
        · obtain ⟨x, b, rfl, inside⟩ := List.eq_append_cons_of_mem closed
          rw [bind_found (span_until inside b), bind_found (char_found _ _),
            bind_found (span_apply _ _)]
          cases behind : b.dropWhile isSpacing with
          | nil =>
              have blank : ∀ c ∈ b, isSpacing c = true := by
                simpa [List.dropWhile_eq_nil_iff] using behind
              exact absurd (Named.mk inside blank) (unnamed x)
          | cons d r => rfl
        · rw [bind_found (span_to_end closed)]
          exact bind_absent (char_absent (by simp))
      · exact bind_absent (char_absent (by simpa using opens))

theorem orSet_apply (content : List Char) :
    orSet content = orElse (do atEnd; return [wildcard])
      (orElse namedChambers letterChambers) (unmarked content) := by
  rw [orSet, bind_found (span_apply _ _), unmarked]
  cases content.dropWhile isSpacing with
  | nil => rfl
  | cons c s =>
      by_cases mark : c = 'c'
      · subst mark
        rw [bind_found (opt_found (char_found _ _)), bind_found (span_apply _ _)]
        rfl
      · have absent : char 'c' (c :: s) = .absent := char_absent (by simpa using mark)
        rw [bind_found (opt_absent absent), bind_found (span_apply _ _)]
        simp [mark]

theorem orSet_found {content : List Char} (stands : StandsFor (unmarked content) set) :
    orSet content = .found set [] := by
  rw [orSet_apply]
  generalize unmarked content = y at stands
  cases stands with
  | any => rfl
  | names named =>
      have more : (do atEnd; return [wildcard] : Scanner OrSet) y = .absent := by
        cases named
        rfl
      rw [orElse_absent more, orElse_found (namedChambers_found named)]
  | letters some unnamed =>
      have more : (do atEnd; return [wildcard] : Scanner OrSet) y = .absent := by
        cases y with
        | nil => exact absurd rfl some
        | cons c s => rfl
      rw [orElse_absent more, orElse_absent (namedChambers_absent unnamed)]
      rfl

theorem exists_standsFor (y : List Char) :
    ∃ set, StandsFor y set := by
  by_cases named : ∃ names, Named names y
  · obtain ⟨names, named⟩ := named
    exact ⟨_, .names named⟩
  · by_cases some : y = []
    · subst some
      exact ⟨_, .any⟩
    · exact ⟨_, .letters some (not_exists.mp named)⟩

end Sets

/-- Neither scanner falls back on a default: the brackets are found, and each of their contents
is read as an or-set. -/
theorem orSets_found (recipe : String) :
    ∃ contents, whole? bracketContents recipe.toList = some contents ∧
      Brackets recipe.toList contents ∧
      List.Forall₂ (fun content set => whole? orSet content = some set ∧
        StandsFor (unmarked content) set) contents (orSets recipe) := by
  obtain ⟨contents, found, brackets⟩ := exists_contents recipe.toList
  refine ⟨contents, found, brackets, ?_⟩
  rw [orSets, found, Option.getD_some, List.forall₂_map_right_iff, List.forall₂_same]
  intro content _
  obtain ⟨set, stands⟩ := exists_standsFor (unmarked content)
  have read : whole? orSet content = some set := by
    rw [whole?, orSet_found stands]
  rw [read, Option.getD_some]
  exact ⟨rfl, stands⟩

/-- The or-sets of a recipe id are those that its brackets ask for. -/
theorem asks_orSets (recipe : String) :
    Asks recipe (orSets recipe) := by
  obtain ⟨contents, -, brackets, read⟩ := orSets_found recipe
  exact ⟨contents, brackets, read.imp fun _ _ => And.right⟩

end Recipe
end RuncardReview
