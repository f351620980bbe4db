import Mathlib.Algebra.Field.Rat
import Mathlib.Algebra.Order.Group.Unbundled.Int
import Mathlib.Tactic.Positivity
import Mathlib.Tactic.FieldSimp
import SchemaDrift.Proofs.Type.Change
/-!
Which values a safe change of a decimal keeps. The digits in front of the point are compared with a
difference that stops at zero, so that a scale above the precision goes unnoticed.
-/

set_option autoImplicit false

namespace SchemaDrift.ColumnType

-- Each value of `p` digits, `s` of them behind the point, is one of `q` digits, `t` of them behind
-- the point.
def DecimalsFit (p s q t : Nat) : Prop :=
  ∀ n : Int, |n| < 10 ^ p → ∃ m : Int, |m| < 10 ^ q ∧ (n : ℚ) / 10 ^ s = m / 10 ^ t

theorem decimal_change_iff (p s q t : Nat) :
    SafeChange (decimal p s) (decimal q t) ↔ p ≤ q ∧ s ≤ t ∧ p - s ≤ q - t := by
  rw [safe_change_iff]
  constructor
  · rintro (same | ⟨-, widens⟩)
    · cases same
      exact ⟨le_rfl, le_rfl, le_rfl⟩
    · cases widens with
      | unbounded none => cases none
      | decimal precision scale digits =>
          exact ⟨WithTop.coe_le_coe.mp precision, scale, WithTop.coe_le_coe.mp digits⟩
  · rintro ⟨precision, scale, digits⟩
    exact .inr ⟨rfl,
      .decimal (WithTop.coe_le_coe.mpr precision) scale (WithTop.coe_le_coe.mpr digits)⟩

theorem rescaled_iff (n m : Int) (s t : Nat) (scale : s ≤ t) :
    (n : ℚ) / 10 ^ s = m / 10 ^ t ↔ m = n * 10 ^ (t - s) := by
  obtain ⟨d, rfl⟩ := Nat.exists_eq_add_of_le scale
  rw [Nat.add_sub_cancel_left, div_eq_div_iff (by positivity) (by positivity), pow_add, ← mul_assoc,
    mul_right_comm, mul_left_inj' (by positivity)]
  constructor
  · exact fun same => by exact_mod_cast same.symm
  · rintro rfl
    push_cast
    rfl

theorem rescaled_size (n : Int) (d : Nat) : |n * 10 ^ d| = |n| * 10 ^ d := by
  rw [abs_mul, abs_of_nonneg (by positivity : (0 : Int) ≤ 10 ^ d)]

theorem largest_rescaled (p q d : Nat) (some : p ≠ 0)
    (fits : (10 ^ p - 1) * 10 ^ d < (10 : Int) ^ q) : p + d ≤ q := by
  by_contra long
  obtain ⟨k, rfl⟩ := Nat.exists_eq_succ_of_ne_zero some
  have digits : (10 : Int) ^ q ≤ 10 ^ (k + d) :=
    pow_le_pow_right₀ (by decide) (by omega)
  have leading : (10 : Int) ^ k ≤ 10 ^ (k + 1) - 1 := by
    have positive : (0 : Int) < 10 ^ k := by positivity
    rw [pow_succ]
    omega
  have longer : (10 : Int) ^ (k + d) ≤ (10 ^ (k + 1) - 1) * 10 ^ d := by
    rw [pow_add]
    exact mul_le_mul_of_nonneg_right leading (by positivity)
  exact absurd fits (not_lt.mpr (digits.trans longer))

theorem decimals_fit_rescaled (p s q t : Nat) (scale : s ≤ t) :
    DecimalsFit p s q t ↔ p = 0 ∨ p + t ≤ q + s := by
  -- The largest value decides.
  constructor
  · intro fit
    by_cases empty : p = 0
    · exact .inl empty
    · have positive : (0 : Int) ≤ 10 ^ p - 1 := Int.le_sub_one_of_lt (by positivity)
      obtain ⟨m, small, same⟩ := fit (10 ^ p - 1) (by rw [abs_of_nonneg positive]; omega)
      rw [rescaled_iff _ _ _ _ scale] at same
      rw [same, rescaled_size, abs_of_nonneg positive] at small
      have room := largest_rescaled p q (t - s) empty small
      exact .inr (by omega)
  · intro room n small
    refine ⟨n * 10 ^ (t - s), ?_, (rescaled_iff _ _ _ _ scale).mpr rfl⟩
    rw [rescaled_size]
    rcases room with rfl | room
    · have zero : |n| = 0 := le_antisymm (Int.lt_add_one_iff.mp small) (abs_nonneg n)
      rw [zero, zero_mul]
      positivity
    · calc |n| * 10 ^ (t - s) < 10 ^ p * 10 ^ (t - s) := mul_lt_mul_of_pos_right small (by positivity)
        _ = 10 ^ (p + (t - s)) := (pow_add ..).symm
        _ ≤ 10 ^ q := pow_le_pow_right₀ (by decide) (by omega)

-- A safe change keeps every value exactly if the new precision takes in the digits that are added
-- behind the point. It does as long as the new scale is within the new precision.
theorem safe_decimal_fits_iff (p s q t : Nat) (safe : SafeChange (decimal p s) (decimal q t)) :
    (DecimalsFit p s q t ↔ p = 0 ∨ p + t ≤ q + s) ∧ (t ≤ q → DecimalsFit p s q t) := by
  obtain ⟨precision, scale, digits⟩ := (decimal_change_iff p s q t).mp safe
  have fit := decimals_fit_rescaled p s q t scale
  exact ⟨fit, fun inside => fit.mpr (.inr (by omega))⟩

theorem hundredths_fit : SafeChange (decimal 1 2) (decimal 2 3) ∧ DecimalsFit 1 2 2 3 := by
  have safe : SafeChange (decimal 1 2) (decimal 2 3) := .inr (by decide)
  exact ⟨safe, (safe_decimal_fits_iff 1 2 2 3 safe).1.mpr (.inr (by decide))⟩

-- 0.9 is a single digit, behind the point. With two digits behind the point it takes two in all.
theorem nine_tenths_is_lost : ¬∀ p s q t : UInt32,
    SafeChange (decimal p.toNat s.toNat) (decimal q.toNat t.toNat) →
      DecimalsFit p.toNat s.toNat q.toNat t.toNat := by
  intro fits
  have fit := fits 1 1 1 2 (.inr (by decide))
  rcases (decimals_fit_rescaled 1 1 1 2 (by decide)).mp fit with empty | room
  · cases empty
  · exact absurd room (by decide)

end SchemaDrift.ColumnType
