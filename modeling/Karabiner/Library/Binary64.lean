import Mathlib.Data.Int.Log
import Mathlib.Data.Rat.Floor

/-!
# Binary64 rounding

The finite doubles are rational numbers: multiples of a power of two with 53 bits.  An operation on
doubles rounds its exact result to the nearest of them, and to an even multiple when two are as
near.  Results that are too large for a finite double are not treated.

* `round` — the double that is nearest.
* `zero_le_mul`, `mul_le_zero`, `zero_le_div` — **rounding keeps the sign** of a product and of a
  quotient.
-/

namespace Binary64

/-- The distance of the doubles around `q`.  No double is finer than `2 ^ (-1074)`. -/
def ulp (q : ℚ) : ℚ := 2 ^ max (Int.log 2 |q| - 52) (-1074)

/-- The distance between neighbours is positive. -/
theorem ulp_pos (q : ℚ) : 0 < ulp q := zpow_pos (by norm_num) _

/-- The nearest integer, the even one of two. -/
def roundHalfEven (q : ℚ) : ℤ :=
  if q - ⌊q⌋ < 1 / 2 then ⌊q⌋
  else if 1 / 2 < q - ⌊q⌋ then ⌊q⌋ + 1
  else if ⌊q⌋ % 2 = 0 then ⌊q⌋ else ⌊q⌋ + 1

/-- It is one of the two integers around `q`, and the lower one unless `q` is half a unit above. -/
theorem roundHalfEven_cases (q : ℚ) :
    roundHalfEven q = ⌊q⌋ ∨ 1 / 2 ≤ q - ⌊q⌋ ∧ roundHalfEven q = ⌊q⌋ + 1 := by
  unfold roundHalfEven
  split_ifs with hlow hhigh heven
  · exact .inl rfl
  · exact .inr ⟨hhigh.le, rfl⟩
  · exact .inl rfl
  · exact .inr ⟨not_lt.mp hlow, rfl⟩

/-- Rounding to integers keeps the sign. -/
theorem roundHalfEven_nonneg {q : ℚ} (h : 0 ≤ q) : 0 ≤ roundHalfEven q := by
  have hfloor : 0 ≤ ⌊q⌋ := Int.floor_nonneg.mpr h
  rcases roundHalfEven_cases q with heq | ⟨-, heq⟩ <;> omega

/-- The same on the other side of zero. -/
theorem roundHalfEven_nonpos {q : ℚ} (h : q ≤ 0) : roundHalfEven q ≤ 0 := by
  have hfloor : ⌊q⌋ ≤ 0 := Int.floor_nonpos h
  rcases roundHalfEven_cases q with heq | ⟨hhalf, heq⟩
  · omega
  · -- A floor of zero would leave `q` half a unit above it.
    have hne : ⌊q⌋ ≠ 0 := by
      intro hzero
      rw [hzero, Int.cast_zero, sub_zero] at hhalf
      exact absurd (hhalf.trans h) (by norm_num)
    omega

/-- The double that is nearest to `q`. -/
def round (q : ℚ) : ℚ := roundHalfEven (q / ulp q) * ulp q

/-- A number that is not negative is not rounded to a negative one. -/
theorem round_nonneg {q : ℚ} (h : 0 ≤ q) : 0 ≤ round q :=
  mul_nonneg (Int.cast_nonneg (roundHalfEven_nonneg (div_nonneg h (ulp_pos q).le)))
    (ulp_pos q).le

theorem round_nonpos {q : ℚ} (h : q ≤ 0) : round q ≤ 0 :=
  mul_nonpos_of_nonpos_of_nonneg
    (Int.cast_nonpos.mpr (roundHalfEven_nonpos (div_nonpos_of_nonpos_of_nonneg h (ulp_pos q).le)))
    (ulp_pos q).le

/-! ### Operations -/

/-- The product of two doubles. -/
def mul (q r : ℚ) : ℚ := round (q * r)

/-- The quotient of two doubles. -/
def div (q r : ℚ) : ℚ := round (q / r)

/-- The product of numbers that are not negative is not negative. -/
theorem zero_le_mul {q r : ℚ} (hq : 0 ≤ q) (hr : 0 ≤ r) : 0 ≤ mul q r :=
  round_nonneg (mul_nonneg hq hr)

theorem mul_le_zero {q r : ℚ} (hq : q ≤ 0) (hr : 0 ≤ r) : mul q r ≤ 0 :=
  round_nonpos (mul_nonpos_of_nonpos_of_nonneg hq hr)

theorem zero_le_div {q r : ℚ} (hq : 0 ≤ q) (hr : 0 ≤ r) : 0 ≤ div q r :=
  round_nonneg (div_nonneg hq hr)

/-- The nearest double to 1.15 is below it, and so is the product with 100. -/
example : mul 100 (div 115 100) = 8092405580431359 / 2 ^ 46 := by decide +kernel

end Binary64
