import Mathlib.Algebra.Order.Floor.Ring
import Mathlib.Algebra.Order.Group.Unbundled.Abs
import Mathlib.Data.Rat.Floor
import Mathlib.Tactic.Linarith
import Mathlib.Tactic.NormNum
import Mathlib.Tactic.Positivity

/-! # Doubles as rational numbers

    The value of a finite binary64 number is a rational.  An arithmetic
    operation gives the exact result, rounded to the nearest double, ties to
    the even significand. -/

namespace Binary64

/-- A double; negative zero is zero. -/
inductive Double where
  | finite (q : ℚ)
  | infinite (negative : Bool)
  | nan
  deriving DecidableEq, Repr

/-! ## Comparing -/

/-- `<=`: a NaN compares with nothing. -/
def Double.le : Double → Double → Bool
  | .finite q, .finite r => decide (q ≤ r)
  | .finite _, .infinite negative => !negative
  | .infinite negative, .finite _ => negative
  | .infinite negative, .infinite negative' => negative || !negative'
  | _, _ => false

instance : LE Double := ⟨fun a b => Double.le a b = true⟩

instance (a b : Double) : Decidable (a ≤ b) := inferInstanceAs (Decidable (Double.le a b = true))

instance (n : Nat) [OfNat ℚ n] : OfNat Double n := ⟨.finite (OfNat.ofNat n)⟩

@[simp] theorem Double.zero_le_finite {q : ℚ} : 0 ≤ Double.finite q ↔ 0 ≤ q := decide_eq_true_iff

/-! ## Rounding -/

/-- The nearest integer, ties to even. -/
def roundHalfEven (q : ℚ) : ℤ :=
  let rest := q - ⌊q⌋
  if rest < 1 / 2 then ⌊q⌋
  else if 1 / 2 < rest then ⌊q⌋ + 1
  else if ⌊q⌋ % 2 = 0 then ⌊q⌋
  else ⌊q⌋ + 1

/-- The exponent of a positive rational: the power of two below it. -/
def exponent (q : ℚ) : ℤ :=
  let e : ℤ := (Nat.log2 q.num.natAbs : ℤ) - Nat.log2 q.den
  if (2 : ℚ) ^ e ≤ q then e else e - 1

/-- The distance of the doubles around a positive rational. -/
def ulp (q : ℚ) : ℚ := 2 ^ max (exponent q - 52) (-1074)

/-- The nearest double, where no exponent is too large. -/
def nearest (q : ℚ) : ℚ :=
  if q = 0 then 0
  else if 0 < q then roundHalfEven (q / ulp q) * ulp q
  else -(roundHalfEven (-q / ulp (-q)) * ulp (-q))

/-- A rational as a double. -/
def ofRat (q : ℚ) : Double :=
  if 2 ^ 1024 ≤ |nearest q| then .infinite (q < 0) else .finite (nearest q)

/-! ## How far rounding goes -/

theorem abs_roundHalfEven_sub_le (q : ℚ) : |(roundHalfEven q : ℚ) - q| ≤ 1 / 2 := by
  have hfloor : (⌊q⌋ : ℚ) ≤ q := Int.floor_le q
  have hlt : q < ⌊q⌋ + 1 := Int.lt_floor_add_one q
  rw [abs_le, roundHalfEven]
  split
  · constructor <;> linarith
  · split
    · push_cast
      constructor <;> linarith
    · split
      · constructor <;> linarith
      · push_cast
        constructor <;> linarith

theorem roundHalfEven_nonneg {q : ℚ} (hq : 0 ≤ q) : 0 ≤ roundHalfEven q := by
  have hfloor : 0 ≤ ⌊q⌋ := Int.floor_nonneg.mpr hq
  rw [roundHalfEven]
  split
  · exact hfloor
  · split
    · omega
    · split <;> omega

theorem two_zpow_log2_le {n : ℕ} (hn : n ≠ 0) : (2 : ℚ) ^ (Nat.log2 n : ℤ) ≤ n := by
  rw [zpow_natCast]
  exact_mod_cast Nat.log2_self_le hn

theorem lt_two_zpow_log2 (n : ℕ) : (n : ℚ) < 2 ^ ((Nat.log2 n : ℤ) + 1) := by
  have h : n < 2 ^ (Nat.log2 n + 1) := Nat.lt_log2_self
  have : ((Nat.log2 n : ℤ) + 1) = ((Nat.log2 n + 1 : ℕ) : ℤ) := by push_cast; rfl
  rw [this, zpow_natCast]
  exact_mod_cast h

theorem two_zpow_exponent_le {q : ℚ} (hq : 0 < q) : (2 : ℚ) ^ exponent q ≤ q := by
  rw [exponent]
  split
  · assumption
  · -- the numerator is at least a power of two, the denominator below the next one
    have hnum : (2 : ℚ) ^ (Nat.log2 q.num.natAbs : ℤ) ≤ q.num.natAbs :=
      two_zpow_log2_le (Int.natAbs_ne_zero.mpr (Rat.num_ne_zero.mpr hq.ne'))
    have hden : (q.den : ℚ) < 2 ^ ((Nat.log2 q.den : ℤ) + 1) := lt_two_zpow_log2 q.den
    have hdenpos : (0 : ℚ) < q.den := by exact_mod_cast q.den_pos
    have habs : ((q.num.natAbs : ℕ) : ℚ) = q.num := by
      have : ((q.num.natAbs : ℤ)) = q.num := Int.natAbs_of_nonneg (Rat.num_nonneg.mpr hq.le)
      rw [← Int.cast_natCast, this]
    have hsplit : (2 : ℚ) ^ ((Nat.log2 q.num.natAbs : ℤ) - Nat.log2 q.den - 1) =
        2 ^ (Nat.log2 q.num.natAbs : ℤ) / 2 ^ ((Nat.log2 q.den : ℤ) + 1) := by
      rw [← zpow_sub₀ (two_ne_zero), sub_sub]
    calc (2 : ℚ) ^ ((Nat.log2 q.num.natAbs : ℤ) - Nat.log2 q.den - 1)
        = 2 ^ (Nat.log2 q.num.natAbs : ℤ) / 2 ^ ((Nat.log2 q.den : ℤ) + 1) := hsplit
      _ ≤ q.num / 2 ^ ((Nat.log2 q.den : ℤ) + 1) := by
          rw [← habs]
          exact div_le_div_of_nonneg_right hnum (zpow_pos two_pos _).le
      _ ≤ q.num / q.den := by
          have : (0 : ℚ) ≤ q.num := by rw [← habs]; positivity
          gcongr
      _ = q := Rat.num_div_den q

/-- Below a power of two, the doubles are no further apart than below it. -/
theorem ulp_le {q : ℚ} (hq : 0 < q) {k : ℤ} (hk : q < 2 ^ k) (hmin : -1021 ≤ k) :
    ulp q ≤ 2 ^ (k - 53) := by
  have hlt : exponent q < k := by
    have := (two_zpow_exponent_le hq).trans_lt hk
    exact (zpow_lt_zpow_iff_right₀ one_lt_two).mp this
  rw [ulp]
  exact zpow_le_zpow_right₀ one_le_two (by omega)

theorem ulp_pos (q : ℚ) : 0 < ulp q := zpow_pos two_pos _

theorem nearest_nonneg {q : ℚ} (hq : 0 ≤ q) : 0 ≤ nearest q := by
  rw [nearest]
  split
  · exact le_refl 0
  · split
    · have hpos := ulp_pos q
      have : (0 : ℚ) ≤ roundHalfEven (q / ulp q) := by
        exact_mod_cast roundHalfEven_nonneg (by positivity)
      positivity
    · exact absurd (lt_of_le_of_ne hq (Ne.symm ‹_›)) ‹_›

/-- Rounding goes half the distance of the doubles at most. -/
theorem abs_nearest_sub_le {q : ℚ} (hq : 0 ≤ q) {k : ℤ} (hk : q < 2 ^ k) (hmin : -1021 ≤ k) :
    |nearest q - q| ≤ 2 ^ (k - 54) := by
  have hhalf : (2 : ℚ) ^ (k - 54) = 1 / 2 * 2 ^ (k - 53) := by
    rw [show k - 53 = (k - 54) + 1 by ring, zpow_add_one₀ two_ne_zero]
    ring
  rw [nearest]
  split
  · rename_i hzero
    rw [hzero, sub_zero, abs_zero]
    exact (zpow_pos two_pos _).le
  · rename_i hne
    rw [if_pos (lt_of_le_of_ne hq (Ne.symm hne))]
    have hulp := ulp_pos q
    have hulple := ulp_le (lt_of_le_of_ne hq (Ne.symm hne)) hk hmin
    calc |(roundHalfEven (q / ulp q) : ℚ) * ulp q - q|
        = |(roundHalfEven (q / ulp q) : ℚ) - q / ulp q| * ulp q := by
          rw [← abs_of_pos hulp, ← abs_mul, abs_of_pos hulp, sub_mul,
            div_mul_cancel₀ q hulp.ne']
      _ ≤ 1 / 2 * ulp q := by
          gcongr
          exact abs_roundHalfEven_sub_le _
      _ ≤ 2 ^ (k - 54) := by rw [hhalf]; gcongr

end Binary64
