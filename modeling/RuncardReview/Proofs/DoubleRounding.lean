import Mathlib.Tactic.Ring
import RuncardReview.Proofs.NearestDouble

/-!
# How a double is rounded and stored

The arithmetic of doubles works on a sign, a natural mantissa and an exponent.  A mantissa that is
too long is shifted to the right, bit by bit; what is lost is remembered in two bits, and these say
how to round.  A mantissa that is too short is shifted to the left first.  The result is stored in
64 bits, or as an infinity if the exponent is too large for them.

**Results.**
* `Keeps`, `Keeps.shiftRightOne`: what the two bits say of the bits that are lost.
* `Keeps.roundedMantissa`: they round to the nearer number of units.
* `exists_roundWithAccuracy`, `exists_round`: the mantissa and exponent of a rounded double.
* `unpack_pack_finite`, `unpack_pack_huge`: what is read back of a stored double.
-/

namespace RuncardReview
namespace Number

open Float.Model UnpackedFloat

/-! ## Shifting to the right -/

section Shift

variable {em : ExtendedMantissa} {m u : ℕ}

/-- The extended mantissa keeps of `m` the number of whole units `u`, and in its two bits whether
the rest is half a unit at least, and whether it is anything else than nothing or a half. -/
structure Keeps (em : ExtendedMantissa) (m u : ℕ) : Prop where
  mantissa : em.mantissa = m / u
  roundBit : em.roundBit = true ↔ u ≤ 2 * (m % u)
  stickyBit : em.stickyBit = true ↔ m % u ≠ 0 ∧ 2 * (m % u) ≠ u

theorem keeps_exact (m : ℕ) : Keeps ⟨m, false, false⟩ m 1 :=
  ⟨(Nat.div_one m).symm, by simp [Nat.mod_one], by simp [Nat.mod_one]⟩

theorem Keeps.shiftRightOne (keeps : Keeps em m u) (hu : 0 < u) :
    Keeps em.shiftRightOne m (u * 2) := by
  have rest : m % u < u := Nat.mod_lt m hu
  have grown : m % (u * 2) = m % u + u * (m / u % 2) := Nat.mod_mul
  refine ⟨?_, ?_, ?_⟩
  · rw [ExtendedMantissa.shiftRightOne, keeps.mantissa, Nat.div_div_eq_div_mul]
  · simp only [ExtendedMantissa.shiftRightOne, keeps.mantissa, bne_iff_ne, grown]
    rcases Nat.mod_two_eq_zero_or_one (m / u) with even | odd
    · rw [even]
      omega
    · rw [odd]
      omega
  · simp only [ExtendedMantissa.shiftRightOne, Bool.or_eq_true, keeps.roundBit, keeps.stickyBit,
      grown]
    rcases Nat.mod_two_eq_zero_or_one (m / u) with even | odd
    · rw [even]
      omega
    · rw [odd]
      omega

theorem keeps_shiftRight (m k : ℕ) :
    Keeps ((⟨m, false, false⟩ : ExtendedMantissa) >>> k) m (2 ^ k) := by
  induction k with
  | zero => exact keeps_exact m
  | succ k ih => exact ih.shiftRightOne (Nat.two_pow_pos k)

/-- The two bits say which number of units is nearer. -/
theorem Keeps.roundedMantissa (keeps : Keeps em m u) (hu : 0 < u) :
    em.roundedMantissa = halfEven m u := by
  obtain ⟨q, round, sticky⟩ := em
  obtain ⟨rfl, half, other⟩ := keeps
  have rest : m % u < u := Nat.mod_lt m hu
  cases round with
  | false =>
      have less : 2 * (m % u) < u := not_le.mp (mt half.mpr Bool.false_ne_true)
      rw [halfEven, if_pos (Or.inl less)]
      cases sticky <;> rfl
  | true =>
      have more : u ≤ 2 * (m % u) := half.mp rfl
      cases sticky with
      | false =>
          have tie : 2 * (m % u) = u := by
            by_contra differ
            exact Bool.false_ne_true (other.mpr ⟨by omega, differ⟩)
          show m / u + m / u % 2 = _
          rcases Nat.mod_two_eq_zero_or_one (m / u) with even | odd
          · rw [halfEven, if_pos (Or.inr ⟨tie, even⟩), even, Nat.add_zero]
          · rw [halfEven, if_neg (by omega), odd]
      | true =>
          have noTie : 2 * (m % u) ≠ u := (other.mp rfl).2
          rw [halfEven, if_neg (by omega)]
          rfl

end Shift

/-! ## Rounding -/

section Round

variable {s : Sign} {m : ℕ} {e : ℤ}

theorem targetExponent_eq (t : ℤ) : Format.binary64.targetExponent t = max (t - 53) (-1074) :=
  rfl

/-- A mantissa with at least 53 digits loses all behind these, where the exponent is not too
small. -/
theorem shiftToTargetExponent_eq (long : 52 ≤ m.log2) (low : -1074 ≤ (m.log2 : ℤ) + e - 52) :
    shiftToTargetExponent .binary64 m e .exact =
      ((⟨m, false, false⟩ : ExtendedMantissa) >>> (m.log2 - 52), e + (m.log2 - 52 : ℕ)) := by
  have amount : (max ((m.log2 : ℤ) + 1 + e - 53) (-1074) - e).toNat = m.log2 - 52 := by omega
  simp only [shiftToTargetExponent, shiftToExponent, targetExponent_eq, totalExponent, amount,
    ExtendedMantissa.ofMantissaAndAccuracy]

/-- Where a carry makes a mantissa one digit longer, all digits behind the first are zero. -/
theorem div_pow_of_carry {r : ℕ} (lower : 2 ^ 52 ≤ r) (upper : r ≤ 2 ^ 53) :
    (r / 2 ^ (r.log2 - 52)).log2 = 52 ∧ r / 2 ^ (r.log2 - 52) * 2 ^ (r.log2 - 52) = r := by
  rcases Nat.lt_or_eq_of_le upper with fits | rfl
  · have length : r.log2 = 52 := (Nat.log2_eq_iff (by omega)).mpr ⟨lower, fits⟩
    simp [length]
  · decide

/-- Rounding shifts twice, the second time for a carry. -/
theorem roundWithAccuracy_eq {em em' : ExtendedMantissa} {r : ℕ} {e' e'' : ℤ}
    (first : shiftToTargetExponent .binary64 m e .exact = (em, e'))
    (rounded : em.roundedMantissa = r)
    (second : shiftToTargetExponent .binary64 r e' .exact = (em', e'')) (pos : 0 < em'.mantissa) :
    roundWithAccuracy .binary64 s m e .exact = .finite s em'.mantissa e'' pos := by
  subst rounded
  rw [roundWithAccuracy, first]
  dsimp only
  rw [second]
  exact dif_neg pos.ne'

/-- A mantissa with at least 53 digits is rounded to 53 digits. -/
theorem exists_roundWithAccuracy (long : 52 ≤ m.log2) (low : -1074 ≤ (m.log2 : ℤ) + e - 52) :
    ∃ (c k : ℕ) (pos : 0 < c),
      roundWithAccuracy .binary64 s m e .exact = .finite s c (e + k) pos ∧
        c.log2 = 52 ∧ m.log2 - 52 ≤ k ∧ c * 2 ^ k = nearest m := by
  have some : m ≠ 0 := by
    rintro rfl
    simp at long
  have wide : 2 ^ 52 ≤ m := (Nat.le_log2 some).mp long
  have lower : 2 ^ 52 ≤ halfEven m (spacing m) := (pow_le_div_spacing wide).trans le_halfEven
  have upper : halfEven m (spacing m) ≤ 2 ^ 53 := halfEven_le.trans (div_spacing_lt m)
  have rounded : ((⟨m, false, false⟩ : ExtendedMantissa) >>> (m.log2 - 52)).roundedMantissa =
      halfEven m (spacing m) :=
    (keeps_shiftRight m _).roundedMantissa (spacing_pos m)
  have result : nearest m = halfEven m (spacing m) * 2 ^ (m.log2 - 52) := rfl
  generalize halfEven m (spacing m) = r at lower upper rounded result
  have digits : 52 ≤ r.log2 := (Nat.le_log2 (by omega)).mpr lower
  obtain ⟨normal, value⟩ := div_pow_of_carry lower upper
  rw [← (keeps_shiftRight r (r.log2 - 52)).mantissa] at normal value
  have pos : 0 < ((⟨r, false, false⟩ : ExtendedMantissa) >>> (r.log2 - 52)).mantissa := by
    refine Nat.pos_of_ne_zero fun zero => ?_
    rw [zero] at normal
    cases normal
  refine ⟨_, m.log2 - 52 + (r.log2 - 52), pos, ?_, normal, Nat.le_add_right _ _, ?_⟩
  · rw [roundWithAccuracy_eq (shiftToTargetExponent_eq long low) rounded
      (shiftToTargetExponent_eq digits (by omega)) pos]
    rw [UnpackedFloat.finite.injEq]
    refine ⟨rfl, rfl, ?_⟩
    push_cast
    ring
  · rw [result, Nat.add_comm, Nat.pow_add, ← Nat.mul_assoc, value]

/-- A mantissa that is too short is brought to 53 digits first. -/
theorem exists_round (pos : 0 < m) (low : -1022 ≤ (m.log2 : ℤ) + e) :
    ∃ (c k : ℕ) (hc : 0 < c),
      UnpackedFloat.round .binary64 s m e = .finite s c (e - (52 - m.log2 : ℕ) + k) hc ∧
        c.log2 = 52 ∧ m.log2 - 52 ≤ k ∧ c * 2 ^ k = nearest (m * 2 ^ (52 - m.log2)) := by
  have amount : (e - max ((m.log2 : ℤ) + 1 + e - 53) (-1074)).toNat = 52 - m.log2 := by omega
  have lengthened : (m * 2 ^ (52 - m.log2)).log2 = m.log2 + (52 - m.log2) :=
    log2_mul_pow pos.ne' _
  have reduced : UnpackedFloat.round .binary64 s m e =
      roundWithAccuracy .binary64 s (m * 2 ^ (52 - m.log2)) (e - (52 - m.log2 : ℕ)) .exact := by
    simp only [UnpackedFloat.round, decreaseExponent, targetExponent_eq, totalExponent, amount,
      Nat.shiftLeft_eq]
  rw [reduced]
  obtain ⟨c, k, hc, rounded, normal, shift, value⟩ :=
    exists_roundWithAccuracy (s := s) (m := m * 2 ^ (52 - m.log2))
      (e := e - (52 - m.log2 : ℕ)) (by omega) (by omega)
  exact ⟨c, k, hc, rounded, normal, by omega, value⟩

end Round

/-! ## Storing -/

section Store

variable {s : Sign} {c : ℕ} {e : ℤ} {pos : 0 < c}

theorem unpack_pack (x : UnpackedFloat) :
    (Float.Model.pack x).unpack = UnpackedFloat.unpack .binary64 (UnpackedFloat.pack .binary64 x) :=
  rfl

/-- The first digit of the mantissa is not stored. -/
theorem toNat_one_append (normal : c.log2 = 52) : (1#1 ++ BitVec.ofNat 52 c).toNat = c := by
  have some : c ≠ 0 := by
    rintro rfl
    cases normal
  obtain ⟨lower, upper⟩ := (Nat.log2_eq_iff some).mp normal
  have low : c % 2 ^ 52 < 2 ^ 52 := Nat.mod_lt _ (by decide)
  rw [BitVec.toNat_append, BitVec.toNat_ofNat, BitVec.toNat_ofNat,
    ← Nat.shiftLeft_add_eq_or_of_lt low, Nat.shiftLeft_eq]
  omega

/-- The sign is stored in the first bit. -/
theorem sign_packComponents (e : BitVec 11) (c : BitVec 52) :
    Sign.ofBitVec (unpackSign (packComponents .binary64 s e c)) = s := by
  have first : unpackSign (packComponents .binary64 s e c) = s.toBitVec :=
    (BitVec.extractLsb'_append_eq_of_le (Nat.le_add_right 52 11)).trans
      BitVec.extractLsb'_append_eq_left
  rw [first]
  cases s <;> rfl

/-- What is stored of a double: an infinity if it is too large, and otherwise its components. -/
theorem pack_finite : UnpackedFloat.pack .binary64 (.finite s c e pos) =
    if 2 ^ 11 ≤ (e + (1023 : ℕ) + (52 : ℕ)).toNat + 1 then packedInfinity .binary64 s
    else if c.log2 + 1 = 53 then
      packComponents .binary64 s (BitVec.ofNat 11 (e + (1023 : ℕ) + (52 : ℕ)).toNat)
        (BitVec.ofNat 52 c)
    else packComponents .binary64 s 0#11 (BitVec.ofNat 52 c) :=
  rfl

/-- What is read of components whose exponent is neither the greatest nor the least. -/
theorem exists_unpack_eq {x : BitVec 11} {y : BitVec 52} (notAll : x ≠ -1#11) (notNone : x ≠ 0#11) :
    ∃ pos, UnpackedFloat.unpack .binary64 (packComponents .binary64 s x y) =
      .finite s (1#1 ++ y).toNat (x.toNat - ((1023 : ℕ) + (52 : ℕ))) pos := by
  have exponent : unpackExponent (packComponents .binary64 s x y) = x :=
    unpackExponent_packComponents ..
  rw [← exponent] at notAll notNone
  have read : ∃ pos, UnpackedFloat.unpack .binary64 (packComponents .binary64 s x y) =
      .finite (Sign.ofBitVec (unpackSign (packComponents .binary64 s x y)))
        (1#1 ++ unpackMantissa (packComponents .binary64 s x y)).toNat
        ((unpackExponent (packComponents .binary64 s x y)).toNat - ((1023 : ℕ) + (52 : ℕ))) pos :=
    ⟨_, (if_neg notAll).trans (if_neg notNone)⟩
  rwa [exponent, sign_packComponents, unpackMantissa_packComponents] at read

theorem unpack_pack_notANumber : (Float.Model.pack .notANumber).unpack = .notANumber :=
  rfl

theorem unpack_pack_infinity (s : Sign) :
    (Float.Model.pack (.infinity s)).unpack = .infinity s := by
  cases s <;> rfl

/-- A double that is too large is stored as an infinity. -/
theorem unpack_pack_huge (high : 971 < e) :
    (Float.Model.pack (.finite s c e pos)).unpack = .infinity s := by
  have overflow : 2 ^ 11 ≤ (e + (1023 : ℕ) + (52 : ℕ)).toNat + 1 := by omega
  rw [unpack_pack, pack_finite, if_pos overflow]
  exact unpack_pack_infinity s

/-- A double with 53 digits is read back, if it is neither too large nor too small. -/
theorem unpack_pack_finite (normal : c.log2 = 52) (low : -1074 ≤ e) (high : e ≤ 971) :
    (Float.Model.pack (.finite s c e pos)).unpack = .finite s c e pos := by
  have fits : ¬2 ^ 11 ≤ (e + (1023 : ℕ) + (52 : ℕ)).toNat + 1 := by omega
  have full : c.log2 + 1 = 53 := by omega
  have biased : (BitVec.ofNat 11 (e + (1023 : ℕ) + (52 : ℕ)).toNat).toNat = (e + 1075).toNat := by
    rw [BitVec.toNat_ofNat]
    omega
  have notAll : BitVec.ofNat 11 (e + (1023 : ℕ) + (52 : ℕ)).toNat ≠ -1#11 := by
    intro all
    rw [all] at biased
    have : (-1#11).toNat = 2047 := by decide
    omega
  have notNone : BitVec.ofNat 11 (e + (1023 : ℕ) + (52 : ℕ)).toNat ≠ 0#11 := by
    intro none
    rw [none] at biased
    have : (0#11).toNat = 0 := rfl
    omega
  rw [unpack_pack, pack_finite, if_neg fits, if_pos full]
  obtain ⟨_, read⟩ := exists_unpack_eq (s := s) (y := BitVec.ofNat 52 c) notAll notNone
  rw [read, UnpackedFloat.finite.injEq, biased]
  refine ⟨rfl, toNat_one_append normal, ?_⟩
  omega

end Store

end Number
end RuncardReview
