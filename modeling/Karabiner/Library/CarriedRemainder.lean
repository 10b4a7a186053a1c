import Mathlib.Algebra.Order.Floor.Ring
import Mathlib.Tactic.Abel

/-!
# Whole units with a carried remainder

A converter adds every amount it receives to what it carries.  The whole units of the sum leave, at
most so many in one direction, and what is left is carried on.

* `Truncates` — a sum is split into whole units and a remainder of its sign.
* `saturate` — the units that leave.
* `Truncates.conserves` — **nothing is lost** as long as all units leave.
* `Truncates.saturates` — otherwise the bound leaves, with the sign of the sum.
* `Truncates.add` — **nothing is rounded twice** while the amounts have one sign.
* `truncates_trunc` — the truncation of a number splits it in this way.
-/

namespace CarriedRemainder

/-! ### Splitting a sum -/

section

variable {M : Type*} [AddCommGroup M] [LinearOrder M]

/-- `sum` is `quotient` units and a `remainder`, rounded towards zero. -/
structure Truncates (unit sum : M) (quotient : ℤ) (remainder : M) : Prop where
  quotient_add : quotient • unit + remainder = sum
  remainder_lt : |remainder| < unit
  nonneg : 0 ≤ sum → 0 ≤ quotient ∧ 0 ≤ remainder
  nonpos : sum ≤ 0 → quotient ≤ 0 ∧ remainder ≤ 0

/-- The units that leave when at most `bound` of them may leave at once. -/
def saturate (bound quotient : ℤ) : ℤ := max (min quotient bound) (-bound)

theorem saturate_bounds {bound : ℤ} (hbound : 0 ≤ bound) (quotient : ℤ) :
    -bound ≤ saturate bound quotient ∧ saturate bound quotient ≤ bound := by
  unfold saturate
  omega

theorem saturate_of_abs_le {bound quotient : ℤ} (h : |quotient| ≤ bound) :
    saturate bound quotient = quotient := by
  obtain ⟨hlower, hupper⟩ := abs_le.mp h
  unfold saturate
  omega

namespace Truncates

variable {unit sum remainder : M} {quotient bound : ℤ}

/-- **Nothing is lost**: what leaves and what is carried add up to the sum. -/
theorem conserves (h : Truncates unit sum quotient remainder) (hbound : |quotient| ≤ bound) :
    saturate bound quotient • unit + remainder = sum := by
  rw [saturate_of_abs_le hbound]
  exact h.quotient_add

theorem sum_pos (h : Truncates unit sum quotient remainder) (hquotient : 0 < quotient) :
    0 < sum :=
  lt_of_not_ge fun hsum => absurd (h.nonpos hsum).1 (not_le.mpr hquotient)

theorem sum_neg (h : Truncates unit sum quotient remainder) (hquotient : quotient < 0) :
    sum < 0 :=
  lt_of_not_ge fun hsum => absurd (h.nonneg hsum).1 (not_le.mpr hquotient)

/-- **What does not fit keeps its sign.** -/
theorem saturates (h : Truncates unit sum quotient remainder) (hbound : 0 ≤ bound)
    (hlt : bound < |quotient|) :
    (0 < sum ∧ saturate bound quotient = bound) ∨
      (sum < 0 ∧ saturate bound quotient = -bound) := by
  unfold saturate
  rcases lt_abs.mp hlt with hpos | hneg
  · exact .inl ⟨h.sum_pos (by omega), by omega⟩
  · exact .inr ⟨h.sum_neg (by omega), by omega⟩

/-- **The carried remainder counts**: sums of one sign may be split one after the other. -/
theorem add [IsOrderedAddMonoid M] {amount remainder' : M} {quotient' : ℤ}
    (h : Truncates unit sum quotient remainder)
    (h' : Truncates unit (remainder + amount) quotient' remainder')
    (hsign : (0 ≤ sum ∧ 0 ≤ amount) ∨ (sum ≤ 0 ∧ amount ≤ 0)) :
    Truncates unit (sum + amount) (quotient + quotient') remainder' where
  quotient_add := by
    rw [add_zsmul, add_assoc, h'.quotient_add, ← add_assoc, h.quotient_add]
  remainder_lt := h'.remainder_lt
  nonneg hadd := by
    have hboth : 0 ≤ sum ∧ 0 ≤ amount := by
      rcases hsign with hnonneg | ⟨hsum, hamount⟩
      · exact hnonneg
      · exact ⟨le_of_le_add_of_nonpos_left hadd hamount, le_of_le_add_of_nonpos_right hadd hsum⟩
    obtain ⟨hquotient, hremainder⟩ := h.nonneg hboth.1
    obtain ⟨hquotient', hremainder'⟩ := h'.nonneg (add_nonneg hremainder hboth.2)
    exact ⟨add_nonneg hquotient hquotient', hremainder'⟩
  nonpos hadd := by
    have hboth : sum ≤ 0 ∧ amount ≤ 0 := by
      rcases hsign with ⟨hsum, hamount⟩ | hnonpos
      · exact ⟨le_of_add_le_of_nonneg_left hadd hamount, le_of_add_le_of_nonneg_right hadd hsum⟩
      · exact hnonpos
    obtain ⟨hquotient, hremainder⟩ := h.nonpos hboth.1
    obtain ⟨hquotient', hremainder'⟩ := h'.nonpos (add_nonpos hremainder hboth.2)
    exact ⟨add_nonpos hquotient hquotient', hremainder'⟩

/-- Integers are split by the division that rounds towards zero. -/
theorem quotient_eq_tdiv {unit sum remainder : ℤ} (h : Truncates unit sum quotient remainder) :
    quotient = sum.tdiv unit := by
  have hsum : remainder + unit * quotient = sum := by
    rw [add_comm, mul_comm, ← h.quotient_add, zsmul_eq_mul, Int.cast_id]
  have hlt := abs_lt.mp h.remainder_lt
  rcases le_total 0 sum with hnonneg | hnonpos
  · have hremainder := (h.nonneg hnonneg).2
    exact ((Int.tdiv_tmod_unique hnonneg (by omega)).mpr ⟨hsum, hremainder, by omega⟩).1.symm
  · have hremainder := (h.nonpos hnonpos).2
    exact ((Int.tdiv_tmod_unique' hnonpos (by omega)).mpr ⟨hsum, by omega, hremainder⟩).1.symm

end Truncates

end

/-! ### Truncation of a number -/

section

variable {K : Type*} [Ring K] [LinearOrder K] [IsStrictOrderedRing K] [FloorRing K]

/-- `std::trunc`. -/
def trunc (x : K) : ℤ := if 0 ≤ x then ⌊x⌋ else ⌈x⌉

omit [IsStrictOrderedRing K] in
theorem trunc_of_nonneg {x : K} (hx : 0 ≤ x) : trunc x = ⌊x⌋ := if_pos hx

theorem trunc_of_nonpos {x : K} (hx : x ≤ 0) : trunc x = ⌈x⌉ := by
  rcases hx.eq_or_lt with rfl | hneg
  · simp [trunc]
  · exact if_neg (not_le.mpr hneg)

/-- **The truncation of a number splits it** into whole ones and a remainder. -/
theorem truncates_trunc (x : K) : Truncates 1 x (trunc x) (x - trunc x) where
  quotient_add := by
    rw [zsmul_one]
    abel
  remainder_lt := by
    rcases le_total 0 x with hx | hx
    · have hnonneg : 0 ≤ x - ⌊x⌋ := sub_nonneg.mpr (Int.floor_le x)
      rw [trunc_of_nonneg hx, abs_of_nonneg hnonneg, sub_lt_iff_lt_add']
      exact Int.lt_floor_add_one x
    · have hnonpos : x - ⌈x⌉ ≤ 0 := sub_nonpos.mpr (Int.le_ceil x)
      rw [trunc_of_nonpos hx, abs_of_nonpos hnonpos, neg_sub, sub_lt_iff_lt_add']
      exact Int.ceil_lt_add_one x
  nonneg hx := by
    rw [trunc_of_nonneg hx]
    exact ⟨Int.floor_nonneg.mpr hx, sub_nonneg.mpr (Int.floor_le x)⟩
  nonpos hx := by
    rw [trunc_of_nonpos hx]
    exact ⟨Int.ceil_nonpos.mpr hx, sub_nonpos.mpr (Int.le_ceil x)⟩

end

end CarriedRemainder
