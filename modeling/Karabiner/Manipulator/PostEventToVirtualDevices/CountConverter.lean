import Karabiner.Library.CarriedRemainder
import Karabiner.Library.Machine
import Mathlib.Algebra.BigOperators.Ring.List
import Mathlib.Algebra.Order.BigOperators.Group.List
import Mathlib.Data.List.Induction
import Mathlib.Tactic.Ring

/-!
# The count converter of the mouse keys

`count_converter` of `post_event_to_virtual_devices/mouse_key_handler.hpp`.  A value is added to the
count, and each `threshold` in it becomes one unit of the result.  A result stops at 127 in either
direction, while the loops go on consuming the count.

An `int` is an integer: nothing else overflows when `count_ + value` does not, for the loops only
bring the count closer to zero.

* `consumePlus_eq` — the second loop is the first one, mirrored.
* `truncates_update` — **an update splits the count** into whole thresholds and a remainder.
* `run_countConverter` — no motion is lost over a run.
-/

namespace Karabiner.PostEventToVirtualDevices

open CarriedRemainder

/-- `count_converter`, made with a threshold of at least 1. -/
@[ext] structure CountConverter where
  threshold : ℤ
  threshold_pos : 0 < threshold
  count : ℤ := 0
deriving DecidableEq, Repr

namespace CountConverter

/-! ### The loops -/

/-- `count_ += value`. -/
def add (value : ℤ) (c : CountConverter) : CountConverter := { c with count := c.count + value }

@[simp] theorem threshold_add (value : ℤ) (c : CountConverter) :
    (c.add value).threshold = c.threshold := rfl

@[simp] theorem count_add (value : ℤ) (c : CountConverter) :
    (c.add value).count = c.count + value := rfl

/-- `--result`, down to -127. -/
def decrement (result : ℤ) : ℤ := if result > -127 then result - 1 else result

/-- `++result`, up to 127. -/
def increment (result : ℤ) : ℤ := if result < 127 then result + 1 else result

/-- The first loop of `update`, with the result. -/
def consumeMinus (c : CountConverter) (result : ℤ) : CountConverter × ℤ :=
  if c.count ≤ -c.threshold then
    consumeMinus (c.add c.threshold) (decrement result)
  else (c, result)
termination_by (-c.count).toNat
decreasing_by
  have hpos := c.threshold_pos
  rw [count_add]
  omega

/-- The second loop of `update`, with the result. -/
def consumePlus (c : CountConverter) (result : ℤ) : CountConverter × ℤ :=
  if c.count ≥ c.threshold then
    consumePlus (c.add (-c.threshold)) (increment result)
  else (c, result)
termination_by c.count.toNat
decreasing_by
  have hpos := c.threshold_pos
  rw [count_add]
  omega

/-- The first loop has a round that leaves the result as it is. -/
def minusClamps (c : CountConverter) (result : ℤ) : Bool :=
  if c.count ≤ -c.threshold then
    if result > -127 then minusClamps (c.add c.threshold) (result - 1) else true
  else false
termination_by (-c.count).toNat
decreasing_by
  have hpos := c.threshold_pos
  rw [count_add]
  omega

/-- The second loop has a round that leaves the result as it is. -/
def plusClamps (c : CountConverter) (result : ℤ) : Bool :=
  if c.count ≥ c.threshold then
    if result < 127 then plusClamps (c.add (-c.threshold)) (result + 1) else true
  else false
termination_by c.count.toNat
decreasing_by
  have hpos := c.threshold_pos
  rw [count_add]
  omega

/-- `update`. -/
def update (value : ℤ) (c : CountConverter) : CountConverter × UInt8 :=
  let minus := (c.add value).consumeMinus 0
  let plus := minus.1.consumePlus minus.2
  (plus.1, .ofInt plus.2)

/-- An update that has to clamp. -/
def clamps (value : ℤ) (c : CountConverter) : Bool :=
  let minus := (c.add value).consumeMinus 0
  (c.add value).minusClamps 0 || minus.1.plusClamps minus.2

/-- `reset`. -/
def reset (c : CountConverter) : CountConverter := { c with count := 0 }

/-! ### One update -/

/-- **The first loop**, with the number of its rounds. -/
theorem consumeMinus_spec {c : CountConverter} {result : ℤ} (hresult : -127 ≤ result) :
    ∃ rounds : ℕ,
      c.consumeMinus result = (c.add (rounds * c.threshold), max (-127) (result - rounds)) ∧
        -c.threshold < c.count + rounds * c.threshold ∧
        (rounds = 0 ∨ c.count + rounds * c.threshold ≤ 0) ∧
        (c.minusClamps result ↔ result - rounds < -127) := by
  fun_induction consumeMinus c result with
  | case1 c result hle ih =>
      obtain ⟨rounds, hconsume, hlower, hupper, hclamps⟩ :=
        ih (by unfold decrement; split_ifs <;> omega)
      have hcount : c.count + c.threshold + rounds * c.threshold =
          c.count + (rounds + 1 : ℕ) * c.threshold := by
        push_cast
        ring
      rw [threshold_add, count_add, hcount] at hlower hupper
      refine ⟨rounds + 1, ?_, hlower, .inr ?_, ?_⟩
      · rw [hconsume, Prod.mk.injEq]
        constructor
        · ext
          · rfl
          · exact hcount
        · unfold decrement
          split_ifs <;> omega
      · rcases hupper with rfl | hupper
        · simp
          omega
        · exact hupper
      · rw [minusClamps, if_pos hle]
        split_ifs with hgt
        · rw [decrement, if_pos hgt] at hclamps
          rw [hclamps]
          omega
        · simp
          omega
  | case2 c result hgt =>
      refine ⟨0, ?_, by omega, .inl rfl, ?_⟩
      · simp [add, hresult]
      · rw [minusClamps, if_neg hgt]
        simp
        omega

/-- A converter with the opposite count. -/
def mirror (c : CountConverter) : CountConverter := { c with count := -c.count }

theorem neg_increment (result : ℤ) : -increment result = decrement (-result) := by
  unfold increment decrement
  split_ifs <;> omega

/-- **The second loop is the first one**, mirrored. -/
theorem consumePlus_eq (c : CountConverter) (result : ℤ) :
    c.consumePlus result =
        ((c.mirror.consumeMinus (-result)).1.mirror, -(c.mirror.consumeMinus (-result)).2) ∧
      c.plusClamps result = c.mirror.minusClamps (-result) := by
  fun_induction consumePlus c result with
  | case1 c result hge ih =>
      have hle : c.mirror.count ≤ -c.mirror.threshold := neg_le_neg hge
      have hmirror : (c.add (-c.threshold)).mirror = c.mirror.add c.mirror.threshold := by
        ext
        · rfl
        · simp [mirror]
          ring
      rw [hmirror, neg_increment] at ih
      constructor
      · rw [ih.1, consumeMinus.eq_def c.mirror, if_pos hle]
      · rw [plusClamps, if_pos hge, minusClamps, if_pos hle]
        by_cases hlt : result < 127
        · have hclamps := ih.2
          rw [increment, decrement, if_pos hlt, if_pos (neg_lt_neg hlt)] at hclamps
          rw [if_pos hlt, if_pos (neg_lt_neg hlt), hclamps]
        · rw [if_neg hlt, if_neg (mt neg_lt_neg_iff.mp hlt)]
  | case2 c result hlt =>
      have hgt : ¬c.mirror.count ≤ -c.mirror.threshold := fun h => hlt (neg_le_neg_iff.mp h)
      rw [consumeMinus, if_neg hgt, plusClamps, if_neg hlt, minusClamps, if_neg hgt]
      simp [mirror]

theorem consumePlus_spec {c : CountConverter} {result : ℤ} (hresult : result ≤ 127) :
    ∃ rounds : ℕ,
      c.consumePlus result = (c.add (-(rounds * c.threshold)), min 127 (result + rounds)) ∧
        c.count - rounds * c.threshold < c.threshold ∧
        (rounds = 0 ∨ 0 ≤ c.count - rounds * c.threshold) ∧
        (c.plusClamps result ↔ 127 < result + rounds) := by
  obtain ⟨hplus, hclamps⟩ := consumePlus_eq c result
  obtain ⟨rounds, hminus, hlower, hupper, hminusClamps⟩ :=
    consumeMinus_spec (c := c.mirror) (neg_le_neg hresult)
  change -c.threshold < -c.count + rounds * c.threshold at hlower
  change rounds = 0 ∨ -c.count + rounds * c.threshold ≤ 0 at hupper
  refine ⟨rounds, ?_, by omega, by omega, ?_⟩
  · rw [hplus, hminus, Prod.mk.injEq]
    constructor
    · ext
      · rfl
      · show -(-c.count + rounds * c.threshold) = c.count + -(rounds * c.threshold)
        ring
    · show -max (-127) (-result - rounds) = min 127 (result + rounds)
      omega
  · rw [hclamps, hminusClamps]
    omega

/-- **The rounds of the two loops split a count**, and only one of the loops has rounds: the first
one leaves no positive count. -/
theorem truncates_rounds {threshold count : ℤ} (hpos : 0 < threshold) {minus plus : ℕ}
    (hlower : -threshold < count + minus * threshold)
    (hupper : minus = 0 ∨ count + minus * threshold ≤ 0)
    (hplusUpper : count + minus * threshold - plus * threshold < threshold)
    (hplusLower : plus = 0 ∨ 0 ≤ count + minus * threshold - plus * threshold) :
    (minus = 0 ∨ plus = 0) ∧
      Truncates threshold count (plus - minus)
        (count + minus * threshold - plus * threshold) := by
  have hzero (rounds : ℕ) (h : rounds * threshold ≤ 0) : rounds = 0 := by
    by_contra hne
    have hproduct := mul_pos (Int.natCast_pos.mpr (Nat.pos_of_ne_zero hne)) hpos
    omega
  have hminus (hnonneg : 0 ≤ count) : minus = 0 :=
    hupper.elim id fun hupper => hzero minus (by omega)
  have hplus (hminus : count + minus * threshold ≤ 0) : plus = 0 :=
    hplusLower.elim id fun hplusLower => hzero plus (by omega)
  refine ⟨hupper.imp_right hplus, ⟨?_, ?_, fun hnonneg => ?_, fun hnonpos => ?_⟩⟩
  · rw [zsmul_eq_mul, Int.cast_id]
    ring
  · rw [abs_lt]
    rcases hplusLower with rfl | hplusLower <;> omega
  · obtain rfl := hminus hnonneg
    rcases hplusLower with rfl | hplusLower <;> omega
  · obtain rfl : plus = 0 := by
      rcases hupper with rfl | hupper
      · exact hplus (by omega)
      · exact hplus hupper
    rcases hupper with rfl | hupper <;> omega

/-- **An update splits the count** into whole thresholds, as many as the loops have rounds, and what
it leaves.  It clamps when there are more of them than a result can hold. -/
theorem truncates_update (c : CountConverter) (value : ℤ) :
    ∃ rounds : ℤ,
      Truncates c.threshold (c.count + value) rounds (c.update value).1.count ∧
        (c.update value).1.threshold = c.threshold ∧
        (c.update value).2 = .ofInt (saturate 127 rounds) ∧
        (c.clamps value ↔ 127 < |rounds|) := by
  obtain ⟨minus, hminus, hlower, hupper, hminusClamps⟩ :=
    @consumeMinus_spec (c.add value) 0 (by omega)
  obtain ⟨plus, hplus, hplusUpper, hplusLower, hplusClamps⟩ :=
    @consumePlus_spec ((c.add value).add (minus * c.threshold)) (max (-127) (0 - minus)) (by omega)
  rw [threshold_add] at hminus hlower hupper
  rw [threshold_add, threshold_add] at hplus hplusUpper hplusLower
  rw [count_add] at hlower hupper
  rw [count_add, count_add] at hplusUpper hplusLower
  obtain ⟨hone, htruncates⟩ :=
    truncates_rounds c.threshold_pos hlower hupper hplusUpper hplusLower
  have hupdate : c.update value =
      (((c.add value).add (minus * c.threshold)).add (-(plus * c.threshold)),
        .ofInt (min 127 (max (-127) (0 - (minus : ℤ)) + plus))) := by
    rw [update, hminus, hplus]
  have hclamps : c.clamps value ↔
      0 - (minus : ℤ) < -127 ∨ 127 < max (-127) (0 - (minus : ℤ)) + plus := by
    rw [clamps, hminus, Bool.or_eq_true, hminusClamps, hplusClamps]
  have hresult : min 127 (max (-127) (0 - (minus : ℤ)) + plus) =
      saturate 127 ((plus : ℤ) - minus) := by
    unfold saturate
    rcases hone with rfl | rfl <;> omega
  refine ⟨(plus : ℤ) - minus, ?_, ?_, ?_, ?_⟩
  · rw [hupdate]
    exact htruncates
  · rw [hupdate]
    rfl
  · rw [hupdate, hresult]
  · rw [hclamps, lt_abs]
    constructor
    · intro hlt
      rcases hone with rfl | rfl <;> omega
    · intro hlt
      rcases hone with rfl | rfl <;> omega

/-! ### Results as signed bytes -/

/-- A byte of a report, read as a signed one. -/
def signedByte (b : UInt8) : ℤ := b.toInt8.toInt

/-- The conversion to `uint8_t` keeps what a signed byte can hold. -/
theorem signedByte_ofInt {n : ℤ} (hlower : -127 ≤ n) (hupper : n ≤ 127) :
    signedByte (.ofInt n) = n := by
  have hbits : (UInt8.ofInt n).toInt8 = Int8.ofInt n := by
    apply Int8.toBitVec.inj
    apply BitVec.eq_of_toNat_eq
    simp [UInt8.ofInt, BitVec.toNat_ofInt]
    omega
  rw [signedByte, hbits, Int8.toInt_ofInt_of_le (by omega) (by omega)]

theorem signedByte_saturate (n : ℤ) : signedByte (.ofInt (saturate 127 n)) = saturate 127 n :=
  have hbounds := saturate_bounds (by omega : (0 : ℤ) ≤ 127) n
  signedByte_ofInt hbounds.1 hbounds.2

/-- **What one update does**, whatever was converted before. -/
theorem update_spec (c : CountConverter) (value : ℤ) :
    |(c.update value).1.count| < c.threshold ∧
      -127 ≤ signedByte (c.update value).2 ∧ signedByte (c.update value).2 ≤ 127 ∧
      (c.clamps value →
        (0 < c.count + value ∧ signedByte (c.update value).2 = 127) ∨
          (c.count + value < 0 ∧ signedByte (c.update value).2 = -127)) ∧
      (c.clamps value = false →
        c.threshold * signedByte (c.update value).2 + (c.update value).1.count =
          c.count + value) := by
  obtain ⟨rounds, htruncates, -, hresult, hclamps⟩ := c.truncates_update value
  have hbounds := saturate_bounds (by omega : (0 : ℤ) ≤ 127) rounds
  rw [hresult, signedByte_saturate]
  refine ⟨htruncates.remainder_lt, hbounds.1, hbounds.2, fun h => ?_, fun h => ?_⟩
  · exact htruncates.saturates (by omega) (hclamps.mp h)
  · have hfits : |rounds| ≤ 127 := not_lt.mp (mt hclamps.mpr (by simp [h]))
    have hconserves := htruncates.conserves hfits
    rw [zsmul_eq_mul, Int.cast_id] at hconserves
    rw [mul_comm, hconserves]

/-! ### Runs -/

/-- An update, with its result. -/
def step (c : CountConverter) (value : ℤ) : CountConverter × List UInt8 :=
  ((c.update value).1, [(c.update value).2])

/-- The converter after an update. -/
def next (c : CountConverter) (value : ℤ) : CountConverter := (c.step value).1

@[simp] theorem threshold_next (c : CountConverter) (value : ℤ) :
    (c.next value).threshold = c.threshold := by
  obtain ⟨rounds, -, hthreshold, -⟩ := c.truncates_update value
  exact hthreshold

inductive Input
  | update (value : ℤ)
  | reset

def act (c : CountConverter) : Input → CountConverter
  | .update value => c.next value
  | .reset => c.reset

/-- The converter made with a threshold, after some calls. -/
def after (threshold : ℤ) (hthreshold : 1 ≤ threshold) (inputs : List Input) : CountConverter :=
  Machine.run act { threshold, threshold_pos := hthreshold } inputs

theorem threshold_after (threshold : ℤ) (hthreshold : 1 ≤ threshold) (inputs : List Input) :
    (after threshold hthreshold inputs).threshold = threshold := by
  have hkeep (c : CountConverter) (i : Input) (hc : c.threshold = threshold) :
      (c.act i).threshold = threshold := by
    cases i with
    | update value => rw [act, threshold_next, hc]
    | reset => exact hc
  exact Machine.run_invariant hkeep rfl inputs

/-- Nothing is counted at the beginning and after a reset. -/
theorem count_after (threshold : ℤ) (hthreshold : 1 ≤ threshold) {inputs : List Input}
    (hinputs : inputs = [] ∨ inputs.getLast? = some .reset) :
    (after threshold hthreshold inputs).count = 0 := by
  rcases hinputs with rfl | hlast
  · rfl
  · obtain ⟨before, rfl⟩ := List.getLast?_eq_some_iff.mp hlast
    rw [after, Machine.run_concat]
    rfl

/-- **A run of updates that do not clamp loses no motion.** -/
theorem steps_conserve {c : CountConverter} {values : List ℤ}
    (hunclamped : Machine.Steps next (fun c value => c.clamps value = false) c values) :
    c.threshold * ((Machine.outputs step c values).map signedByte).sum +
        (Machine.run next c values).count =
      c.count + values.sum := by
  have hkeep (d : CountConverter) (value : ℤ) (hclamps : d.clamps value = false)
      (hd : d.threshold = c.threshold) : (d.step value).1.threshold = c.threshold ∧
        ((d.step value).2.map fun r => c.threshold * signedByte r).sum + (d.step value).1.count =
          d.count + value := by
    have hstep := (d.update_spec value).2.2.2.2 hclamps
    rw [hd] at hstep
    exact ⟨(d.threshold_next value).trans hd, by simpa [step] using hstep⟩
  have hconserved := Machine.steps_conserved count _ (fun _ value => value) hkeep rfl hunclamped
  rw [Machine.received_eq_sum, List.map_id'] at hconserved
  rw [← List.sum_map_mul_left]
  exact hconserved

/-- A value of at most 127 thresholds does not clamp. -/
theorem clamps_eq_false {c : CountConverter} {value : ℤ} (hcount : |c.count| < c.threshold)
    (hvalue : |value| ≤ 127 * c.threshold) : c.clamps value = false := by
  obtain ⟨rounds, htruncates, -, -, hclamps⟩ := c.truncates_update value
  have hsum : rounds * c.threshold + (c.update value).1.count = c.count + value := by
    rw [← htruncates.quotient_add, zsmul_eq_mul, Int.cast_id]
  have hpos := c.threshold_pos
  obtain ⟨hcountLower, hcountUpper⟩ := abs_lt.mp hcount
  obtain ⟨hvalueLower, hvalueUpper⟩ := abs_le.mp hvalue
  rw [← Bool.not_eq_true, hclamps, lt_abs]
  rintro (hrounds | hrounds)
  · have hremainder := (htruncates.nonneg (htruncates.sum_pos (by omega)).le).2
    have hproduct : 128 * c.threshold ≤ rounds * c.threshold :=
      mul_le_mul_of_nonneg_right (by omega) hpos.le
    omega
  · have hremainder := (htruncates.nonpos (htruncates.sum_neg (by omega)).le).2
    have hproduct : rounds * c.threshold ≤ -128 * c.threshold :=
      mul_le_mul_of_nonneg_right (by omega) hpos.le
    omega

theorem steps_unclamped {c : CountConverter} (hcount : |c.count| < c.threshold)
    {values : List ℤ} (hvalues : ∀ value ∈ values, |value| ≤ 127 * c.threshold) :
    Machine.Steps next (fun c value => c.clamps value = false) c values := by
  induction values generalizing c with
  | nil => trivial
  | cons value values ih =>
      obtain ⟨hvalue, hvalues⟩ := List.forall_mem_cons.mp hvalues
      refine ⟨clamps_eq_false hcount hvalue, ih ?_ ?_⟩
      · rw [threshold_next]
        exact (c.update_spec value).1
      · rw [threshold_next]
        exact hvalues

/-- **Motion in one direction is rounded once**, however many updates it takes. -/
theorem steps_truncate {c : CountConverter} (hcount : c.count = 0) {values : List ℤ}
    (hsign : (∀ value ∈ values, 0 ≤ value) ∨ (∀ value ∈ values, value ≤ 0))
    (hunclamped : Machine.Steps next (fun c value => c.clamps value = false) c values) :
    Truncates c.threshold values.sum ((Machine.outputs step c values).map signedByte).sum
      (Machine.run next c values).count ∧
      (Machine.run next c values).threshold = c.threshold := by
  induction values using List.reverseRecOn with
  | nil =>
      refine ⟨⟨?_, ?_, fun _ => ⟨le_rfl, hcount.ge⟩, fun _ => ⟨le_rfl, hcount.le⟩⟩, rfl⟩
      · simpa using hcount
      · simpa [hcount] using c.threshold_pos
  | append_singleton values value ih =>
      rw [Machine.steps_append] at hunclamped
      obtain ⟨hunclamped, hvalue, -⟩ := hunclamped
      have hsigns : ((∀ v ∈ values, 0 ≤ v) ∧ 0 ≤ value) ∨ ((∀ v ∈ values, v ≤ 0) ∧ value ≤ 0) := by
        simpa [or_imp, forall_and] using hsign
      obtain ⟨htruncates, hthreshold⟩ :=
        ih (hsigns.imp And.left And.left) hunclamped
      obtain ⟨rounds, hupdate, hkept, hresult, hclamps⟩ :=
        (Machine.run next c values).truncates_update value
      have hrounds : signedByte ((Machine.run next c values).update value).2 = rounds := by
        rw [hresult, signedByte_saturate]
        exact saturate_of_abs_le (not_lt.mp (mt hclamps.mpr (by simp [hvalue])))
      rw [hthreshold] at hupdate hkept
      rw [Machine.run_concat, Machine.outputs_concat, List.map_append, List.sum_append,
        List.sum_append, List.sum_singleton]
      refine ⟨?_, hkept⟩
      show Truncates c.threshold (values.sum + value)
        (((Machine.outputs step c values).map signedByte).sum +
          (signedByte ((Machine.run next c values).update value).2 + 0))
        ((Machine.run next c values).update value).1.count
      rw [hrounds, add_zero]
      exact htruncates.add hupdate (hsigns.imp (And.imp_left List.sum_nonneg)
        (And.imp_left fun hnonpos => by simpa using List.sum_le_card_nsmul values 0 hnonpos))

/-- **`count_converter` conserves motion.**  After any calls, an update leaves a count below the
threshold and gives a signed byte between -127 and 127, the sign of the count before the loops when
it clamps.  Since the last reset, the results and the count add up to the values as long as no
update clamps. -/
theorem run_countConverter (threshold : ℤ) (hthreshold : 1 ≤ threshold) (inputs : List Input) :
    let c := after threshold hthreshold inputs
    (∀ value, |(c.update value).1.count| < threshold ∧
      -127 ≤ signedByte (c.update value).2 ∧ signedByte (c.update value).2 ≤ 127 ∧
      (c.clamps value →
        (0 < c.count + value ∧ signedByte (c.update value).2 = 127) ∨
          (c.count + value < 0 ∧ signedByte (c.update value).2 = -127))) ∧
    (inputs = [] ∨ inputs.getLast? = some .reset → ∀ values : List ℤ,
      Machine.Steps next (fun c value => c.clamps value = false) c values →
        threshold * ((Machine.outputs step c values).map signedByte).sum +
          (Machine.run next c values).count = values.sum) := by
  intro c
  have hthreshold_c : c.threshold = threshold := threshold_after threshold hthreshold inputs
  constructor
  · intro value
    obtain ⟨hlt, hlower, hupper, hclamps, -⟩ := c.update_spec value
    exact ⟨hthreshold_c ▸ hlt, hlower, hupper, hclamps⟩
  · intro hinputs values hunclamped
    have hconserve := steps_conserve hunclamped
    rw [hthreshold_c, count_after threshold hthreshold hinputs, zero_add] at hconserve
    exact hconserve

theorem run_countConverter_twoUpdates :
    128 * ((Machine.outputs step (after 128 (by decide) [.update 300, .reset]) [200, -90]).map
        signedByte).sum +
      (Machine.run next (after 128 (by decide) [.update 300, .reset]) [200, -90]).count = 110 :=
  (run_countConverter 128 (by decide) [.update 300, .reset]).2 (.inr rfl) [200, -90] (by
    simp [Machine.Steps, next, step, clamps, update, consumeMinus, consumePlus, minusClamps,
      plusClamps, after, Machine.run, act, reset, increment])

end CountConverter

end Karabiner.PostEventToVirtualDevices
