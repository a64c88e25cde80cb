import Mathlib.Algebra.Order.Ring.Nat
import Mathlib.Data.Nat.Dist
import Mathlib.Tactic.Ring

/-!
# The double nearest to a natural number

A double has 53 binary digits.  So the doubles among the natural numbers are `c * 2 ^ k` with
`c < 2 ^ 53`, up to the largest of them, and all natural numbers up to `2 ^ 53` are doubles.
Of the two doubles around a number the nearer one is taken, and halfway between them the one whose
last digit is even.

**Results.**
* `halfEven`, `dist_halfEven_le`: rounding to a whole number of units.
* `nearest`, `dist_nearest_le`: rounding to a double, were there no largest.
* `nearest_mul_pow_of_lt`, `nearest_of_le`: a double stays as it is.
* `nearest_mul_pow`, `pow_log2_le_nearest`: powers of two in front, and below.
-/

namespace RuncardReview
namespace Number

section HalfEven

variable {m u k : ℕ}

/-- `m / u` as a whole number: the nearer one, and halfway the even one. -/
def halfEven (m u : ℕ) : ℕ :=
  if 2 * (m % u) < u ∨ 2 * (m % u) = u ∧ m / u % 2 = 0 then m / u else m / u + 1

theorem halfEven_mul_right (hk : 0 < k) : halfEven (m * k) (u * k) = halfEven m u := by
  have below : 2 * (m % u * k) < u * k ↔ 2 * (m % u) < u := by
    rw [← Nat.mul_assoc, Nat.mul_lt_mul_right hk]
  have halfway : 2 * (m % u * k) = u * k ↔ 2 * (m % u) = u := by
    rw [← Nat.mul_assoc, Nat.mul_left_inj hk.ne']
  simp only [halfEven, Nat.mul_mod_mul_right, Nat.mul_div_mul_right _ _ hk, below, halfway]

theorem halfEven_of_dvd (hu : 0 < u) (whole : u ∣ m) : halfEven m u = m / u := by
  simp [halfEven, Nat.mod_eq_zero_of_dvd whole, hu]

theorem le_halfEven : m / u ≤ halfEven m u := by
  unfold halfEven
  split <;> omega

theorem halfEven_le : halfEven m u ≤ m / u + 1 := by
  unfold halfEven
  split <;> omega

/-- No multiple of the unit is nearer. -/
theorem dist_halfEven_le (hu : 0 < u) (c : ℕ) :
    Nat.dist m (halfEven m u * u) ≤ Nat.dist m (c * u) := by
  have split : u * (m / u) + m % u = m := Nat.div_add_mod m u
  have rest : m % u < u := Nat.mod_lt m hu
  -- Another multiple is at least one unit off, on one side or on the other.
  have other : c * u ≤ m / u * u ∨ m / u * u + u ≤ c * u := by
    rcases Nat.lt_or_ge (m / u) c with above | below
    · right
      calc m / u * u + u = (m / u + 1) * u := by ring
        _ ≤ c * u := Nat.mul_le_mul_right u above
    · left
      exact Nat.mul_le_mul_right u below
  have swap : u * (m / u) = m / u * u := Nat.mul_comm _ _
  unfold halfEven Nat.dist
  split
  · omega
  · rw [Nat.add_mul, Nat.one_mul]
    omega

end HalfEven

section Nearest

variable {n c : ℕ}

/-- The distance of the doubles around a number, as far as it has more than 53 digits. -/
def spacing (n : ℕ) : ℕ :=
  2 ^ (n.log2 - 52)

/-- The double nearest to a number, if it is not beyond the largest. -/
def nearest (n : ℕ) : ℕ :=
  halfEven n (spacing n) * spacing n

theorem spacing_pos (n : ℕ) : 0 < spacing n :=
  Nat.two_pow_pos _

theorem log2_mul_pow (hn : n ≠ 0) (k : ℕ) : (n * 2 ^ k).log2 = n.log2 + k := by
  obtain ⟨lower, upper⟩ := (Nat.log2_eq_iff hn).mp rfl
  refine (Nat.log2_eq_iff (Nat.mul_ne_zero hn (Nat.two_pow_pos k).ne')).mpr ⟨?_, ?_⟩
  · rw [Nat.pow_add]
    exact Nat.mul_le_mul_right _ lower
  · rw [Nat.add_right_comm, Nat.pow_add]
    exact Nat.mul_lt_mul_of_pos_right upper (Nat.two_pow_pos k)

theorem nearest_of_dvd (whole : spacing n ∣ n) : nearest n = n := by
  rw [nearest, halfEven_of_dvd (spacing_pos n) whole, Nat.div_mul_cancel whole]

/-- What has no more than 53 digits, followed by zeros, is a double. -/
theorem nearest_mul_pow_of_lt (short : c < 2 ^ 53) (k : ℕ) : nearest (c * 2 ^ k) = c * 2 ^ k := by
  by_cases zero : c = 0
  · subst zero
    exact nearest_of_dvd (by simp)
  · have digits : c.log2 < 53 := (Nat.log2_lt zero).mpr short
    have places : (c * 2 ^ k).log2 - 52 ≤ k := by
      rw [log2_mul_pow zero]
      omega
    exact nearest_of_dvd ((Nat.pow_dvd_pow 2 places).mul_left c)

theorem nearest_of_lt (short : n < 2 ^ 53) : nearest n = n := by
  simpa using nearest_mul_pow_of_lt short 0

/-- Up to `2 ^ 53` every number is a double. -/
theorem nearest_of_le (short : n ≤ 2 ^ 53) : nearest n = n := by
  rcases Nat.lt_or_eq_of_le short with shorter | rfl
  · exact nearest_of_lt shorter
  · simpa using nearest_mul_pow_of_lt (show 1 < 2 ^ 53 by decide) 53

/-- Zeros at the end of a number with at least 53 digits change nothing in its rounding. -/
theorem nearest_mul_pow (long : 2 ^ 52 ≤ n) (k : ℕ) : nearest (n * 2 ^ k) = nearest n * 2 ^ k := by
  have some : n ≠ 0 := by omega
  have digits : 52 ≤ n.log2 := (Nat.le_log2 some).mpr long
  have units : spacing (n * 2 ^ k) = spacing n * 2 ^ k := by
    rw [spacing, spacing, log2_mul_pow some, Nat.sub_add_comm digits, Nat.pow_add]
  rw [nearest, nearest, units, halfEven_mul_right (Nat.two_pow_pos k), Nat.mul_assoc]

theorem pow_le_div_spacing (long : 2 ^ 52 ≤ n) : 2 ^ 52 ≤ n / spacing n := by
  have some : n ≠ 0 := by omega
  have digits : 52 ≤ n.log2 := (Nat.le_log2 some).mpr long
  rw [Nat.le_div_iff_mul_le (spacing_pos n), spacing, ← Nat.pow_add, Nat.add_sub_cancel' digits]
  exact (Nat.le_log2 some).mp le_rfl

theorem div_spacing_lt (n : ℕ) : n / spacing n < 2 ^ 53 := by
  by_cases zero : n = 0
  · subst zero
    simp
  · rw [Nat.div_lt_iff_lt_mul (spacing_pos n), spacing, ← Nat.pow_add]
    have upper : n < 2 ^ (n.log2 + 1) := Nat.lt_log2_self
    exact upper.trans_le (Nat.pow_le_pow_right (by decide) (by omega))

/-- Rounding does not go below the leading digit. -/
theorem pow_log2_le_nearest (some : n ≠ 0) : 2 ^ n.log2 ≤ nearest n := by
  by_cases short : n < 2 ^ 53
  · rw [nearest_of_lt short]
    exact (Nat.le_log2 some).mp le_rfl
  · have long : 2 ^ 52 ≤ n := by omega
    have digits : 52 ≤ n.log2 := (Nat.le_log2 some).mpr long
    calc 2 ^ n.log2 = 2 ^ 52 * spacing n := by
          rw [spacing, ← Nat.pow_add, Nat.add_sub_cancel' digits]
      _ ≤ halfEven n (spacing n) * spacing n :=
          Nat.mul_le_mul_right _ ((pow_le_div_spacing long).trans le_halfEven)

theorem pow_le_nearest {b : ℕ} (long : 2 ^ b ≤ n) : 2 ^ b ≤ nearest n := by
  have some : n ≠ 0 := ((Nat.two_pow_pos b).trans_le long).ne'
  have digits : b ≤ n.log2 := (Nat.le_log2 some).mpr long
  exact (Nat.pow_le_pow_right (by decide) digits).trans (pow_log2_le_nearest some)

/-- Rounded numbers are doubles. -/
theorem exists_nearest_eq (n : ℕ) : ∃ c k, c < 2 ^ 53 ∧ nearest n = c * 2 ^ k := by
  have upper : halfEven n (spacing n) ≤ 2 ^ 53 := halfEven_le.trans (div_spacing_lt n)
  rcases Nat.lt_or_eq_of_le upper with fits | carried
  · exact ⟨_, _, fits, rfl⟩
  · refine ⟨1, 53 + (n.log2 - 52), by decide, ?_⟩
    rw [nearest, carried, spacing, ← Nat.pow_add, Nat.one_mul]

/-- No double is nearer. -/
theorem dist_nearest_le (short : c < 2 ^ 53) (k : ℕ) :
    Nat.dist n (nearest n) ≤ Nat.dist n (c * 2 ^ k) := by
  by_cases exact : n < 2 ^ 53
  · rw [nearest_of_lt exact, Nat.dist_self]
    exact Nat.zero_le _
  · have long : 2 ^ 52 ≤ n := by omega
    by_cases fine : n.log2 - 52 ≤ k
    · -- A double of this size or more is a multiple of the spacing.
      have multiple : c * 2 ^ k = c * 2 ^ (k - (n.log2 - 52)) * spacing n := by
        rw [spacing, Nat.mul_assoc, ← Nat.pow_add, Nat.sub_add_cancel fine]
      rw [multiple]
      exact dist_halfEven_le (spacing_pos n) _
    · -- A smaller one lies below the least double with as many digits.
      have below : c * 2 ^ k ≤ 2 ^ 52 * spacing n := by
        calc c * 2 ^ k ≤ 2 ^ 53 * 2 ^ k := Nat.mul_le_mul_right _ short.le
          _ = 2 ^ 52 * 2 ^ (k + 1) := by ring
          _ ≤ 2 ^ 52 * spacing n :=
              Nat.mul_le_mul_left _ (Nat.pow_le_pow_right (by decide) (by omega))
      have least : 2 ^ 52 * spacing n ≤ n :=
        (Nat.le_div_iff_mul_le (spacing_pos n)).mp (pow_le_div_spacing long)
      calc Nat.dist n (nearest n) ≤ Nat.dist n (2 ^ 52 * spacing n) :=
            dist_halfEven_le (spacing_pos n) _
        _ ≤ Nat.dist n (c * 2 ^ k) := by
            rw [Nat.dist_eq_sub_of_le_right least, Nat.dist_eq_sub_of_le_right (below.trans least)]
            exact Nat.sub_le_sub_left below n

end Nearest

end Number
end RuncardReview
