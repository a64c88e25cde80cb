import RuncardReview.Check.WaferCondition
import RuncardReview.Proofs.DoubleRounding

/-!
# Natural numbers as doubles

A natural number is read as the double nearest to it, or as an infinity if it is beyond the
largest.  The difference of two such doubles is zero if they are the same.  Otherwise it has its 53
digits above the last place of the tolerance, as both are whole numbers, and so it is no smaller
than the tolerance.

**Results.**
* `Stored`, `stored_ofDecimal`: which double a natural number is read as.
* `sub_of_eq`, `apart_sub`: the difference of two of them.
* `sub_of_beyond`: two infinities have none.
* `countsAgree_iff`: when two of them are closer than the tolerance.
-/

namespace RuncardReview
namespace Number

open Float.Model UnpackedFloat

/-! ## What a natural number is read as -/

section Stored

variable {d n : ℕ}

/-- A number that is rounded to this or more is read as an infinity. -/
def doubleLimit : ℕ :=
  2 ^ 1024

theorem doubleLimit_pos : 0 < doubleLimit :=
  pow_pos two_pos 1024

theorem doubleLimit_le_pow {b : ℕ} (large : 1024 ≤ b) : doubleLimit ≤ 2 ^ b := by
  rwa [doubleLimit, Nat.pow_le_pow_iff_right (by decide)]

/-- Numbers up to `2 ^ 53` are far below. -/
theorem nearest_lt_doubleLimit (short : n ≤ 2 ^ 53) : nearest n < doubleLimit := by
  have below : 2 ^ 53 < doubleLimit := by
    rw [doubleLimit, Nat.pow_lt_pow_iff_right (by decide)]
    decide
  rw [nearest_of_le short]
  exact short.trans_lt below

/-- The double that is stored for a whole number.  Its mantissa has all 53 digits, so that its
exponent counts from `-52`. -/
inductive Stored : UnpackedFloat → ℕ → Prop
  | zero : Stored (.zero .positive) 0
  | finite {c k d : ℕ} {pos : 0 < c} (normal : c.log2 = 52) (value : c * 2 ^ k = d * 2 ^ 52)
      (inRange : d < doubleLimit) : Stored (.finite .positive c (k - 52) pos) d
  | infinite {d : ℕ} (beyond : doubleLimit ≤ d) : Stored (.infinity .positive) d

theorem Stored.eq_infinity {x : UnpackedFloat} (stored : Stored x d) (beyond : doubleLimit ≤ d) :
    x = .infinity .positive := by
  cases stored with
  | zero => exact absurd doubleLimit_pos (not_lt.mpr beyond)
  | finite _ _ inRange => exact absurd inRange (not_lt.mpr beyond)
  | infinite => rfl

/-- The exponent tells the size. -/
theorem lt_pow_iff {b c k : ℕ} (pos : 0 < c) (normal : c.log2 = 52)
    (value : c * 2 ^ k = d * 2 ^ 52) :
    d < 2 ^ b ↔ k < b := by
  obtain ⟨lower, upper⟩ := (Nat.log2_eq_iff pos.ne').mp normal
  constructor
  · intro below
    have : 2 ^ k * 2 ^ 52 < 2 ^ b * 2 ^ 52 :=
      calc 2 ^ k * 2 ^ 52 = 2 ^ 52 * 2 ^ k := Nat.mul_comm _ _
        _ ≤ c * 2 ^ k := Nat.mul_le_mul_right _ lower
        _ = d * 2 ^ 52 := value
        _ < 2 ^ b * 2 ^ 52 := Nat.mul_lt_mul_of_pos_right below (by decide)
    exact (Nat.pow_lt_pow_iff_right (by decide)).mp (Nat.lt_of_mul_lt_mul_right this)
  · intro small
    have power : 2 ^ (k + 1) ≤ 2 ^ b := Nat.pow_le_pow_right (by decide) small
    have : d * 2 ^ 52 < 2 ^ b * 2 ^ 52 :=
      calc d * 2 ^ 52 = c * 2 ^ k := value.symm
        _ < 2 ^ 53 * 2 ^ k := Nat.mul_lt_mul_of_pos_right upper (Nat.two_pow_pos k)
        _ = 2 ^ (k + 1) * 2 ^ 52 := by ring
        _ ≤ 2 ^ b * 2 ^ 52 := Nat.mul_le_mul_right _ power
    exact Nat.lt_of_mul_lt_mul_right this

theorem stored_pack {c k : ℕ} {e : ℤ} {pos : 0 < c} (normal : c.log2 = 52)
    (value : c * 2 ^ k = d * 2 ^ 52) (places : e = k - 52) :
    Stored (Float.Model.pack (.finite .positive c e pos)).unpack d := by
  subst places
  by_cases inRange : d < doubleLimit
  · have small : k < 1024 := (lt_pow_iff pos normal value).mp inRange
    rw [unpack_pack_finite normal (by omega) (by omega)]
    exact .finite normal value inRange
  · have large : ¬k < 1024 := mt (lt_pow_iff pos normal value).mpr inRange
    rw [unpack_pack_huge (by omega)]
    exact .infinite (not_lt.mp inRange)

/-- A number of 64 bits that has no more than 53 digits is stored as it is. -/
theorem stored_toFloat (some : 0 < n) (short : n < 2 ^ 53) :
    Stored n.toUInt64.toFloat.toModel.unpack n := by
  have digits : n.log2 < 53 := (Nat.log2_lt some.ne').mpr short
  have lengthened : n * 2 ^ (52 - n.log2) < 2 ^ 53 := by
    refine (Nat.log2_lt (Nat.mul_ne_zero some.ne' (Nat.two_pow_pos _).ne')).mp ?_
    rw [log2_mul_pow some.ne']
    omega
  have word : n.toUInt64.toNat = n := by
    simp only [Nat.toUInt64_eq, UInt64.toNat_ofNat']
    omega
  have converted : n.toUInt64.toFloat.toModel =
      Float.Model.pack (UnpackedFloat.round .binary64 .positive n 0) := by
    have positive : compare (n : ℤ) 0 = .gt := compare_gt_iff_gt.mpr (by omega)
    show Float.Model.pack (UnpackedFloat.normalize .binary64 (n.toUInt64.toNat : ℤ) 0 .positive) = _
    rw [word, UnpackedFloat.normalize, positive]
    rfl
  obtain ⟨c, k, pos, rounded, normal, -, value⟩ :=
    exists_round (s := .positive) (m := n) (e := 0) some (by omega)
  rw [nearest_of_lt lengthened] at value
  have value' : c * 2 ^ (k + n.log2) = n * 2 ^ 52 := by
    rw [Nat.pow_add, ← Nat.mul_assoc, value, Nat.mul_assoc, ← Nat.pow_add,
      Nat.sub_add_cancel (by omega)]
  rw [converted, rounded]
  exact stored_pack normal value' (by omega)

theorem unpack_one : (Float.ofBits 0x3FF0000000000000).toModel.unpack =
    .finite .positive (2 ^ 52) (-52) (by decide) :=
  rfl

theorem toModel_mul (x y : Float) :
    (x * y).toModel =
      Float.Model.pack (UnpackedFloat.mul .binary64 x.toModel.unpack y.toModel.unpack) :=
  rfl

/-- Multiplication by one changes nothing. -/
theorem stored_mul_one {x : Float} (stored : Stored x.toModel.unpack d) :
    Stored (x * Float.ofBits 0x3FF0000000000000).toModel.unpack d := by
  rw [toModel_mul, unpack_one]
  generalize x.toModel.unpack = u at stored
  cases stored with
  | zero => exact .zero
  | infinite beyond => exact .infinite beyond
  | @finite c k d pos normal value inRange =>
      obtain ⟨lower, upper⟩ := (Nat.log2_eq_iff pos.ne').mp normal
      have digits : (c * 2 ^ 52).log2 = 104 := by rw [log2_mul_pow pos.ne', normal]
      obtain ⟨c', k', pos', rounded, normal', shift, value'⟩ :=
        exists_roundWithAccuracy (s := .positive) (m := c * 2 ^ 52) (e := (k : ℤ) - 52 + -52)
          (by omega) (by omega)
      rw [nearest_mul_pow_of_lt upper] at value'
      have moved : c' * 2 ^ (k' - 52) = c := by
        have : c' * 2 ^ (k' - 52) * 2 ^ 52 = c * 2 ^ 52 := by
          rw [Nat.mul_assoc, ← Nat.pow_add, Nat.sub_add_cancel (by omega), value']
        exact Nat.mul_right_cancel (by decide) this
      have total : c' * 2 ^ (k' - 52 + k) = d * 2 ^ 52 := by
        rw [Nat.pow_add, ← Nat.mul_assoc, moved, value]
      show Stored (Float.Model.pack (roundWithAccuracy .binary64 .positive (c * 2 ^ 52)
        ((k : ℤ) - 52 + -52) .exact)).unpack d
      rw [rounded]
      exact stored_pack normal' total (by omega)

/-- A number with more than 53 digits is rounded. -/
theorem stored_ofScientific (long : 2 ^ 53 ≤ n) :
    Stored (Float.Model.ofScientific n 0).unpack (nearest n) := by
  have some : n ≠ 0 := by omega
  have digits : 53 ≤ n.log2 := (Nat.le_log2 some).mpr long
  have longer : (n * 2 ^ 53).log2 = n.log2 + 53 := log2_mul_pow some 53
  obtain ⟨c, k, pos, rounded, normal, shift, value⟩ :=
    exists_roundWithAccuracy (s := .positive) (m := n * 2 ^ 53) (e := -53)
      (by omega) (by omega)
  rw [nearest_mul_pow (by omega)] at value
  have half : c * 2 ^ (k - 1) = nearest n * 2 ^ 52 := by
    have : c * 2 ^ (k - 1) * 2 = nearest n * 2 ^ 52 * 2 := by
      rw [Nat.mul_assoc, ← Nat.pow_succ, Nat.succ_eq_add_one, Nat.sub_add_cancel (by omega), value]
      ring
    exact Nat.mul_right_cancel (by decide) this
  have product : Float.Model.ofScientific n 0 =
      Float.Model.pack (roundWithAccuracy .binary64 .positive (n * 2 ^ 53) (-53) .exact) := by
    have low : ¬(0 : ℤ) < -((2 : ℤ) ^ 11 + n.log2) := by omega
    rw [Float.Model.ofScientific, UnpackedFloat.ofScientific, dif_neg some, if_neg (by decide),
      if_neg low, if_pos le_rfl]
    show Float.Model.pack (roundWithAccuracy .binary64 .positive (n <<< 53 * 1) (-53) .exact) = _
    rw [Nat.shiftLeft_eq, Nat.mul_one]
  rw [product, rounded]
  exact stored_pack normal half (by omega)

/-- A decimal digit takes more than three binary ones. -/
theorem pow_le_of_length {k : ℕ} (some : 0 < k) (long : k < (natText n).length) :
    2 ^ (3 * k) ≤ n := by
  have large : 10 ^ k ≤ n := by
    rw [← not_lt, ← Nat.length_toDigits_le_iff (by decide) some, not_le]
    exact long
  rw [Nat.pow_mul]
  exact (Nat.pow_le_pow_left (by decide) k).trans large

/-- More than 400 decimal digits are beyond the largest double. -/
theorem doubleLimit_le_nearest (many : 400 < (natText n).length) : doubleLimit ≤ nearest n := by
  have large : 2 ^ (3 * 400) ≤ n := pow_le_of_length (by decide) many
  exact (doubleLimit_le_pow (by decide)).trans (pow_le_nearest large)

/-- A natural number is read as the double nearest to it, or as an infinity. -/
theorem stored_ofDecimal (n : ℕ) : Stored (ofDecimal n 0).toModel.unpack (nearest n) := by
  by_cases zero : n = 0
  · subst zero
    exact .zero
  · have low : ¬(n = 0 ∨ ((natText n).length : ℤ) + 0 < -400) := by omega
    rw [ofDecimal, if_neg low]
    by_cases many : 400 < (natText n).length
    · rw [if_pos (by omega)]
      exact .infinite (doubleLimit_le_nearest many)
    · rw [if_neg (by omega)]
      by_cases short : n < 2 ^ 53
      · have exactly : Float.ofScientific n false 0 =
            n.toUInt64.toFloat * Float.ofBits 0x3FF0000000000000 := by
          rw [Float.ofScientific, dif_pos ⟨short, by decide⟩]
          rfl
        rw [nearest_of_lt short]
        show Stored (Float.ofScientific n false 0).toModel.unpack n
        rw [exactly]
        exact stored_mul_one (stored_toFloat (Nat.pos_of_ne_zero zero) short)
      · have rounded : Float.ofScientific n false 0 = .ofModel (Float.Model.ofScientific n 0) := by
          rw [Float.ofScientific, dif_neg (by omega)]
          rfl
        show Stored (Float.ofScientific n false 0).toModel.unpack (nearest n)
        rw [rounded]
        exact stored_ofScientific (not_lt.mp short)

end Stored

/-! ## Differences -/

section Difference

variable {x y : UnpackedFloat} {d d' : ℕ}

/-- The double is not within the tolerance: it is infinite, or its 53 digits are above the last
place of the tolerance. -/
inductive Apart : UnpackedFloat → Prop
  | infinite (s : Sign) : Apart (.infinity s)
  | finite {s : Sign} {c : ℕ} {e : ℤ} {pos : 0 < c} (normal : c.log2 = 52) (places : -104 ≤ e) :
      Apart (.finite s c e pos)

theorem Apart.stored (apart : Apart x) : Apart (Float.Model.pack x).unpack := by
  cases apart with
  | infinite s =>
      rw [unpack_pack_infinity]
      exact .infinite s
  | @finite s c e pos normal places =>
      by_cases high : e ≤ 971
      · rw [unpack_pack_finite normal (by omega) high]
        exact .finite normal places
      · rw [unpack_pack_huge (not_le.mp high)]
        exact .infinite s

theorem unpack_tolerance : WaferCondition.tolerance.toModel.unpack =
    .finite .positive (2 ^ 52) (-104) (by decide) :=
  rfl

/-- The larger exponent decides, and with the same exponent the larger mantissa. -/
theorem compare_positive {c c' : ℕ} {e e' : ℤ} {pos : 0 < c} {pos' : 0 < c'} :
    UnpackedFloat.compare (.finite .positive c e pos) (.finite .positive c' e' pos') =
      some ((compare e e').then (compare c c')) :=
  rfl

/-- What is apart is not below the tolerance, whatever its sign. -/
theorem Apart.not_lt (apart : Apart x) :
    (Float.Model.pack x.abs).unpack.compare WaferCondition.tolerance.toModel.unpack ≠
      some .lt := by
  have unlimited : UnpackedFloat.compare (.infinity .positive)
      WaferCondition.tolerance.toModel.unpack ≠ some .lt := by
    rw [unpack_tolerance]
    decide
  cases apart with
  | infinite s =>
      have abs : (UnpackedFloat.infinity s).abs = .infinity .positive := rfl
      rw [abs, unpack_pack_infinity]
      exact unlimited
  | @finite s c e pos normal places =>
      have abs : (UnpackedFloat.finite s c e pos).abs = .finite .positive c e pos := rfl
      rw [abs]
      by_cases high : e ≤ 971
      · rw [unpack_pack_finite normal (by omega) high, unpack_tolerance, compare_positive]
        have wide : 2 ^ 52 ≤ c := ((Nat.log2_eq_iff pos.ne').mp normal).1
        rcases lt_or_eq_of_le places with above | rfl
        · have order : compare e (-104) = .gt := compare_gt_iff_gt.mpr above
          simp [order]
        · have order : compare c (2 ^ 52) ≠ .lt := fun below =>
            absurd (compare_lt_iff_lt.mp below) (not_lt.mpr wide)
          simpa using order
      · rw [unpack_pack_huge (not_le.mp high)]
        exact unlimited

/-- A whole number has its last place at `2 ^ -52` or above, and so has a difference of two. -/
theorem apart_normalize {z : ℤ} {e : ℤ} (some : z ≠ 0) (places : -52 ≤ e) :
    Apart (UnpackedFloat.normalize .binary64 z e .positive) := by
  have rounds : ∀ {s : Sign} {m : ℕ}, 0 < m → Apart (UnpackedFloat.round .binary64 s m e) := by
    intro s m pos
    obtain ⟨c, k, hc, rounded, normal, shift, -⟩ := exists_round (s := s) (e := e) pos (by omega)
    rw [rounded]
    exact .finite normal (by omega)
  unfold UnpackedFloat.normalize
  cases sign : compare z 0 with
  | lt => exact rounds (by have := compare_lt_iff_lt.mp sign; omega)
  | eq => exact absurd (compare_eq_iff_eq.mp sign) some
  | gt => exact rounds (by have := compare_gt_iff_gt.mp sign; omega)

/-- The difference is taken in units of the smaller exponent. -/
theorem sub_positive {c c' : ℕ} {e e' : ℤ} {pos : 0 < c} {pos' : 0 < c'} :
    UnpackedFloat.sub .binary64 (.finite .positive c e pos) (.finite .positive c' e' pos') =
      UnpackedFloat.normalize .binary64
        ((c <<< (e - min e e').toNat : ℕ) - (c' <<< (e' - min e e').toNat : ℕ)) (min e e')
        .positive :=
  rfl

theorem sub_finite {c c' : ℕ} {pos : 0 < c} {pos' : 0 < c'} (k k' : ℕ) :
    UnpackedFloat.sub .binary64 (.finite .positive c (k - 52) pos)
        (.finite .positive c' (k' - 52) pos') =
      UnpackedFloat.normalize .binary64
        ((c * 2 ^ (k - min k k') : ℕ) - (c' * 2 ^ (k' - min k k') : ℕ)) ((min k k' : ℕ) - 52)
        .positive := by
  have least : min ((k : ℤ) - 52) (k' - 52) = (min k k' : ℕ) - 52 := by omega
  have left : ((k : ℤ) - 52 - ((min k k' : ℕ) - 52)).toNat = k - min k k' := by omega
  have right : ((k' : ℤ) - 52 - ((min k k' : ℕ) - 52)).toNat = k' - min k k' := by omega
  rw [sub_positive, least, left, right, Nat.shiftLeft_eq, Nat.shiftLeft_eq]

/-- In units of the last place of the smaller one, the two mantissas are the same exactly if the
numbers are. -/
theorem scaled_eq_iff {c c' k k' : ℕ} (value : c * 2 ^ k = d * 2 ^ 52)
    (value' : c' * 2 ^ k' = d' * 2 ^ 52) :
    c * 2 ^ (k - min k k') = c' * 2 ^ (k' - min k k') ↔ d = d' := by
  have left : c * 2 ^ (k - min k k') * 2 ^ min k k' = d * 2 ^ 52 := by
    rw [Nat.mul_assoc, ← Nat.pow_add, Nat.sub_add_cancel (Nat.min_le_left k k'), value]
  have right : c' * 2 ^ (k' - min k k') * 2 ^ min k k' = d' * 2 ^ 52 := by
    rw [Nat.mul_assoc, ← Nat.pow_add, Nat.sub_add_cancel (Nat.min_le_right k k'), value']
  constructor
  · intro same
    rw [same, right] at left
    exact (Nat.mul_right_cancel (by decide) left).symm
  · rintro rfl
    exact Nat.mul_right_cancel (Nat.two_pow_pos _) (left.trans right.symm)

/-- Two numbers that are stored differ by nothing if they are the same. -/
theorem sub_of_eq (hx : Stored x d) (hy : Stored y d) (inRange : d < doubleLimit) :
    UnpackedFloat.sub .binary64 x y = .zero .positive := by
  have some : ∀ {c k : ℕ}, 0 < c → c * 2 ^ k ≠ 0 * 2 ^ 52 := fun {c k} pos value => by
    rw [Nat.zero_mul] at value
    exact (Nat.mul_pos pos (Nat.two_pow_pos k)).ne' value
  cases hx with
  | zero =>
      cases hy with
      | zero => rfl
      | @finite _ _ _ pos _ value => exact absurd value (some pos)
      | infinite beyond => exact absurd inRange (not_lt.mpr beyond)
  | infinite beyond => exact absurd inRange (not_lt.mpr beyond)
  | @finite c k d pos normal value =>
      cases hy with
      | zero => exact absurd value (some pos)
      | infinite beyond => exact absurd inRange (not_lt.mpr beyond)
      | finite normal' value' =>
          rw [sub_finite, (scaled_eq_iff value value').mpr rfl, sub_self]
          rfl

/-- Two numbers that are stored as doubles, at least one of them finite, are apart if they
differ. -/
theorem apart_sub (hx : Stored x d) (hy : Stored y d')
    (inRange : d < doubleLimit ∨ d' < doubleLimit) (differ : d ≠ d') :
    Apart (UnpackedFloat.sub .binary64 x y) := by
  cases hx with
  | zero =>
      cases hy with
      | zero => exact absurd rfl differ
      | finite normal value => exact .finite normal (by omega)
      | infinite beyond => exact .infinite _
  | @finite c k d pos normal value below =>
      cases hy with
      | zero => exact .finite normal (by omega)
      | @finite c' k' d' pos' normal' value' below' =>
          rw [sub_finite]
          refine apart_normalize (fun same => differ ?_) (by omega)
          exact (scaled_eq_iff value value').mp (by omega)
      | infinite beyond => exact .infinite _
  | infinite beyond =>
      cases hy with
      | zero => exact .infinite _
      | finite normal value => exact .infinite _
      | infinite beyond' =>
          exact absurd inRange (not_or.mpr ⟨not_lt.mpr beyond, not_lt.mpr beyond'⟩)

theorem toModel_abs_sub (x y : Float) :
    (x - y).abs.toModel = Float.Model.pack (Float.Model.pack
      (UnpackedFloat.sub .binary64 x.toModel.unpack y.toModel.unpack)).unpack.abs :=
  rfl

theorem lt_iff_compare (x y : Float) :
    x < y ↔ x.toModel.unpack.compare y.toModel.unpack = some .lt := by
  show Float.lt x y = true ↔ _
  rw [Float.lt, decide_eq_true_eq]
  exact beq_iff_eq

/-- The difference of two infinities is not a number. -/
theorem sub_of_beyond (hx : Stored x d) (hy : Stored y d') (beyond : doubleLimit ≤ d)
    (beyond' : doubleLimit ≤ d') : UnpackedFloat.sub .binary64 x y = .notANumber := by
  obtain rfl := hx.eq_infinity beyond
  obtain rfl := hy.eq_infinity beyond'
  rfl

/-- Two natural numbers are closer than the tolerance exactly if they are rounded to the same
finite double. -/
theorem countsAgree_iff {m n : ℕ} :
    WaferCondition.countsAgree (ofDecimal m 0) (ofDecimal n 0) = true ↔
      nearest m = nearest n ∧ nearest n < doubleLimit := by
  have left := stored_ofDecimal m
  have right := stored_ofDecimal n
  rw [WaferCondition.countsAgree, decide_eq_true_eq, lt_iff_compare, toModel_abs_sub]
  by_cases inRange : nearest m < doubleLimit ∨ nearest n < doubleLimit
  · constructor
    · intro below
      have same : nearest m = nearest n := by
        by_contra differ
        exact (apart_sub left right inRange differ).stored.not_lt below
      rw [same] at inRange
      exact ⟨same, or_self_iff.mp inRange⟩
    · rintro ⟨same, finite⟩
      rw [same] at left
      rw [sub_of_eq left right finite]
      rfl
  · obtain ⟨beyond, beyond'⟩ := not_or.mp inRange
    rw [sub_of_beyond left right (not_lt.mp beyond) (not_lt.mp beyond')]
    constructor
    · intro below
      have abs : UnpackedFloat.notANumber.abs = .notANumber := rfl
      rw [unpack_pack_notANumber, abs, unpack_pack_notANumber] at below
      cases below
    · rintro ⟨-, finite⟩
      exact absurd finite beyond'

end Difference

end Number
end RuncardReview
