import RuncardReview.Proofs.CheckResults
import RuncardReview.Proofs.RuleReading
import RuncardReview.Proofs.WholeDoubles

/-!
# Two wafer counts

The counts of a lot are stored as texts and compared as doubles.  So two counts are the same for
the check exactly if they are rounded to the same finite double, and up to `2 ^ 53` this is to say
that they are the same number.  Above, different numbers can be rounded to one double, and numbers
beyond the doubles are all read as an infinity, which is never the same as itself here, because the
difference of two infinities is not a number.

**Results.**
* `readFloat_trimChars`: what digits with blanks around them are read as.
* `lamp_evaluate`: the lamp for two counts.
* `evaluate_counts`: when the lamp is green, and when it is red.
* `not_exact`: a green lamp for two different counts, and a red one for a count and itself.
-/

namespace RuncardReview
namespace WaferCondition

open Text Number CatalogText

/-- The text is a natural number in decimal digits, with blanks around it at most. -/
inductive Denotes : String → ℕ → Prop
  | digits {front ds back : List Char} (before : ∀ c ∈ front, isBlank c = true)
      (after : ∀ c ∈ back, isBlank c = true) (some : IsDigits ds) :
      Denotes (String.ofList (front ++ (ds ++ back))) (Nat.ofDigitChars 10 ds 0)

theorem denotes_of_all {front ds back : List Char} (before : front.all isBlank = true)
    (after : back.all isBlank = true) (digits : ds.all isDigit = true) (some : ds ≠ []) :
    Denotes (String.ofList (front ++ (ds ++ back))) (Nat.ofDigitChars 10 ds 0) :=
  .digits (List.all_eq_true.mp before) (List.all_eq_true.mp after)
    ⟨some, List.all_eq_true.mp digits⟩

theorem isBlank_digit {c : Char} (digit : isDigit c = true) : isBlank c = false := by
  simp only [isDigit, Bool.and_eq_true, decide_eq_true_eq] at digit
  have lower : 48 ≤ c.toNat := digit.1
  have upper : c.toNat ≤ 57 := digit.2
  simp only [isBlank, inRanges, blankRanges, List.any_cons, List.any_nil, Bool.or_false,
    Bool.or_eq_false_iff, Bool.and_eq_false_iff, decide_eq_false_iff_not, not_le]
  omega

theorem trimChars_digits {ds : List Char} (digits : ∀ c ∈ ds, isDigit c = true) :
    trimChars ds = ds := by
  have whole : ∀ {s : List Char}, (∀ c ∈ s, isDigit c = true) → s.dropWhile isBlank = s := by
    intro s digits
    cases s with
    | nil => rfl
    | cons c s => simp [isBlank_digit (digits c List.mem_cons_self)]
  rw [trimChars, whole digits, whole fun c hc => digits c (List.mem_reverse.mp hc),
    List.reverse_reverse]

/-- Such a text is read as the double that its number is read as. -/
theorem readFloat_trimChars {text : String} {n : ℕ} (denotes : Denotes text n) :
    readFloat (trimChars text.toList) = some (ofDecimal n 0) := by
  obtain ⟨before, after, some⟩ := denotes
  rw [String.toList_ofList, trimChars_padded before after, trimChars_digits some.2,
    readFloat_digits some]
  rfl

section Evaluate

variable {input : CheckInput} {source : Source} {unique quantity : String} {m n : ℕ}

/-- The lamp for two counts that are numbers. -/
theorem lamp_evaluate (passes : Check.skipReason? check.needsSettings input = none)
    (found : source (.wafer input.runcard.id) = .ok (some ⟨unique, quantity⟩ : Option WaferCounts))
    (left : Denotes unique m) (right : Denotes quantity n) :
    ((check.evaluate input).run source).lamp =
      if countsAgree (ofDecimal m 0) (ofDecimal n 0) then .pass else .fail := by
  have asked : (check.run input).run source = .ok (compare (ofDecimal m 0) (ofDecimal n 0)) := by
    simp only [check, Check.lookUp, Inquiry.run, found, outcome, count, readFloat_trimChars left,
      readFloat_trimChars right]
  rw [Check.run_evaluate passes, asked]
  rfl

/-- The numbers are rounded to the same finite double. -/
def SameDouble (m n : ℕ) : Prop :=
  nearest m = nearest n ∧ nearest n < doubleLimit

theorem sameDouble_iff_eq_iff :
    (SameDouble m n ↔ m = n) ↔
      (m = n → nearest n < doubleLimit) ∧ (m ≠ n → ¬SameDouble m n) := by
  by_cases same : m = n
  · simp [same, SameDouble]
  · simp [same]

theorem sameDouble_iff_eq (small : m ≤ 2 ^ 53) (small' : n ≤ 2 ^ 53) :
    SameDouble m n ↔ m = n := by
  have finite : n < doubleLimit := nearest_of_le small' ▸ nearest_lt_doubleLimit small'
  rw [SameDouble, nearest_of_le small, nearest_of_le small']
  exact and_iff_left finite

/-- What the lamp says of two counts. -/
structure Compares (m n : ℕ) (lamp : Lamp) : Prop where
  /-- It is green exactly if they are rounded to the same finite double. -/
  passes : lamp = .pass ↔ SameDouble m n
  /-- It is red otherwise. -/
  fails : lamp = .fail ↔ ¬SameDouble m n
  /-- So it says whether the numbers are the same, unless it is the same number beyond the doubles
  or two numbers with one double. -/
  faithful_iff : ((lamp = .pass ↔ m = n) ∧ (lamp = .fail ↔ m ≠ n)) ↔
    (m = n → nearest n < doubleLimit) ∧ (m ≠ n → ¬SameDouble m n)
  /-- Up to `2 ^ 53` it is green for the same number, and red otherwise. -/
  precise : m ≤ 2 ^ 53 → n ≤ 2 ^ 53 → (lamp = .pass ↔ m = n) ∧ (lamp = .fail ↔ m ≠ n)

/-- A rule on the wafer counts that passes the gates compares the doubles nearest to the
counts. -/
theorem evaluate_counts (passes : Check.skipReason? check.needsSettings input = none)
    (found : source (.wafer input.runcard.id) = .ok (some ⟨unique, quantity⟩ : Option WaferCounts))
    (left : Denotes unique m) (right : Denotes quantity n) :
    Compares m n ((check.evaluate input).run source).lamp := by
  rw [lamp_evaluate passes found left right]
  have green := Lamp.green_or_red_eq_pass_iff.trans (countsAgree_iff (m := m) (n := n))
  have red := Lamp.green_or_red_eq_fail_iff.trans (not_congr (countsAgree_iff (m := m) (n := n)))
  refine ⟨green, red, ?_, fun small small' => ?_⟩
  · rw [green, red, ← sameDouble_iff_eq_iff, not_iff_not, and_self]
    rfl
  · have same := sameDouble_iff_eq small small'
    exact ⟨green.trans same, red.trans (not_congr same)⟩

end Evaluate

/-! ## Two pairs of counts -/

namespace Counted

def input : CheckInput :=
  ⟨⟨"C1", "T1", "R"⟩, { Runcard.ofId "RC-1" with part := some "TM1" },
    ⟨"WaferCondition", ["Prod"], none⟩⟩

def source (unique quantity : String) : Source
  | .wafer _ => .ok (some ⟨unique, quantity⟩ : Option WaferCounts)
  | q => .ok q.noAnswer

theorem passes : Check.skipReason? check.needsSettings input = none := by
  decide +kernel

end Counted

open Counted in
/-- Blanks and zeros in front do not matter. -/
theorem evaluate_counts_of_padded :
    Denotes " 025\t" 25 ∧ Denotes "25" 25 ∧
      Compares 25 25 ((check.evaluate input).run (source " 025\t" "25")).lamp ∧
      ((check.evaluate input).run (source " 025\t" "25")).lamp = .pass := by
  have left : Denotes " 025\t" 25 :=
    @denotes_of_all [' '] "025".toList ['\t'] rfl rfl rfl (by decide)
  have right : Denotes "25" 25 :=
    @denotes_of_all [] "25".toList [] rfl rfl rfl (by decide)
  have compares := @evaluate_counts input (source " 025\t" "25") " 025\t" "25" 25 25 passes rfl
    left right
  exact ⟨left, right, compares, (compares.precise (by decide) (by decide)).1.mpr rfl⟩

open Counted in
/-- The lamp is green for the different numbers `2 ^ 53 + 1` and `2 ^ 53`, and red for four hundred
nines and the same text once more. -/
theorem not_exact :
    let nines : List Char := List.replicate 400 '9'
    let text : String := String.ofList nines
    let lamp := fun unique quantity =>
      ((check.evaluate input).run (source unique quantity)).lamp
    Check.skipReason? check.needsSettings input = none ∧
    (Denotes "9007199254740993" (2 ^ 53 + 1) ∧ Denotes "9007199254740992" (2 ^ 53) ∧
      lamp "9007199254740993" "9007199254740992" = .pass) ∧
    (Denotes text (10 ^ 400 - 1) ∧ lamp text text = .fail) := by
  intro nines text lamp
  have left : Denotes "9007199254740993" (2 ^ 53 + 1) :=
    @denotes_of_all [] "9007199254740993".toList [] rfl rfl rfl (by decide)
  have right : Denotes "9007199254740992" (2 ^ 53) :=
    @denotes_of_all [] "9007199254740992".toList [] rfl rfl rfl (by decide)
  have rounded : SameDouble (2 ^ 53 + 1) (2 ^ 53) :=
    ⟨by decide +kernel, nearest_lt_doubleLimit le_rfl⟩
  have long : Denotes text (10 ^ 400 - 1) := by
    have value : Nat.ofDigitChars 10 nines 0 = 10 ^ 400 - 1 := by decide +kernel
    have padded : Denotes (String.ofList ([] ++ (nines ++ []))) (Nat.ofDigitChars 10 nines 0) :=
      denotes_of_all rfl rfl (by decide +kernel) (by decide)
    rwa [List.nil_append, List.append_nil, value] at padded
  have beyond : ¬SameDouble (10 ^ 400 - 1) (10 ^ 400 - 1) := by
    have large : 2 ^ 1024 ≤ 10 ^ 400 - 1 := by decide +kernel
    exact fun same => (pow_le_nearest large).not_gt same.2
  refine ⟨passes, ⟨left, right, ?_⟩, long, ?_⟩
  · exact (lamp_evaluate passes rfl left right).trans (if_pos (countsAgree_iff.mpr rounded))
  · exact (lamp_evaluate passes rfl long long).trans (if_neg (mt countsAgree_iff.mp beyond))

end WaferCondition
end RuncardReview
