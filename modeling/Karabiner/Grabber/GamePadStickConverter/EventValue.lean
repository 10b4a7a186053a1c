import Karabiner.Library.CarriedRemainder
import Karabiner.Library.Machine

/-!
# The values of the game pad events

`event_value` of `core/grabber/device_grabber_details/game_pad_stick_converter.hpp`.  A value is set
for every post; only what is posted takes whole units off it and carries the rest to the next one.

A `double` is an element of an ordered field, and computing with it is exact.

* `truncates_truncatedValue` — a value with what was carried is split into whole units and a rest.
* `run_conserves` — **no drift**: what is returned and what is carried add up to the values.
-/

namespace Karabiner.GamePadStickConverter

open CarriedRemainder

variable {K : Type} [Ring K] [LinearOrder K] [FloorRing K]

/-- `event_value`. -/
@[ext] structure EventValue (K : Type) [Zero K] where
  value : K := 0
  remainder : K := 0
deriving DecidableEq, Repr

namespace EventValue

/-! ### The methods -/

/-- `set_value`, which keeps the remainder. -/
def setValue (value : K) (e : EventValue K) : EventValue K := { e with value }

/-- The whole units in the value and the remainder. -/
def truncated (e : EventValue K) : ℤ := trunc (e.value + e.remainder)

/-- `truncated_value`. -/
def truncatedValue (e : EventValue K) : EventValue K × ℤ :=
  ({ e with remainder := e.remainder + (e.value - e.truncated) },
    -- The logical value range of Karabiner-DriverKit-VirtualHIDPointing.
    max (min e.truncated 127) (-127))

/-- The value is clamped. -/
def Clamps (e : EventValue K) : Prop := 127 < |e.truncated|

instance (e : EventValue K) : Decidable e.Clamps := inferInstanceAs (Decidable (_ < _))

/-! ### Calls -/

/-- A call of one of the two methods. -/
inductive Call (K : Type)
  | setValue (value : K)
  | truncatedValue
deriving DecidableEq, Repr

/-- A call, with the value that it returns. -/
def step (e : EventValue K) : Call K → EventValue K × List ℤ
  | .setValue value => (e.setValue value, [])
  | .truncatedValue => (e.truncatedValue.1, [e.truncatedValue.2])

/-- The event value after a call. -/
def next (e : EventValue K) (call : Call K) : EventValue K := (e.step call).1

/-- The value that is then set, when a call returns one. -/
def taken (e : EventValue K) : Call K → K
  | .setValue _ => 0
  | .truncatedValue => e.value

/-- A call does not clamp the value that it returns. -/
def Unclamped (e : EventValue K) (call : Call K) : Prop := call = .truncatedValue → ¬e.Clamps

/-- **A returned value is bounded.** -/
theorem truncatedValue_bounds (e : EventValue K) :
    -127 ≤ e.truncatedValue.2 ∧ e.truncatedValue.2 ≤ 127 :=
  saturate_bounds (by omega) e.truncated

theorem outputs_bounds (e : EventValue K) (calls : List (Call K)) :
    ∀ v ∈ Machine.outputs step e calls, -127 ≤ v ∧ v ≤ 127 := by
  induction calls generalizing e with
  | nil => simp
  | cons call calls ih =>
      intro v hv
      rcases List.mem_append.mp hv with hv | hv
      · cases call with
        | setValue value => simp [step] at hv
        | truncatedValue =>
            obtain rfl := List.mem_singleton.mp hv
            exact e.truncatedValue_bounds
      · exact ih _ v hv

variable [IsStrictOrderedRing K]

/-- **The value and the remainder are split** into what is truncated and the next remainder. -/
theorem truncates_truncatedValue (e : EventValue K) :
    Truncates 1 (e.value + e.remainder) e.truncated e.truncatedValue.1.remainder := by
  have hremainder : e.truncatedValue.1.remainder = e.value + e.remainder - e.truncated := by
    show e.remainder + (e.value - e.truncated) = e.value + e.remainder - e.truncated
    abel
  rw [hremainder]
  exact truncates_trunc (e.value + e.remainder)

/-- **The remainder is less than one unit** after any calls. -/
theorem abs_remainder_run (calls : List (Call K)) :
    |(Machine.run next ({} : EventValue K) calls).remainder| < 1 := by
  have hkeep (e : EventValue K) (call : Call K) (he : |e.remainder| < 1) :
      |(e.next call).remainder| < 1 := by
    cases call with
    | setValue value => exact he
    | truncatedValue => exact e.truncates_truncatedValue.remainder_lt
  exact Machine.run_invariant hkeep (by simp) calls

/-- **No drift**: while no value is clamped, the returned values and the remainder add up to the
values that were set when they were taken. -/
theorem run_conserves {calls : List (Call K)}
    (hunclamped : Machine.Steps next Unclamped ({} : EventValue K) calls) :
    ((Machine.outputs step ({} : EventValue K) calls).map (Int.cast : ℤ → K)).sum +
        (Machine.run next {} calls).remainder =
      Machine.received next taken {} calls := by
  have hkeep (e : EventValue K) (call : Call K) (hcall : e.Unclamped call) (_ : True) :
      True ∧ ((e.step call).2.map (Int.cast : ℤ → K)).sum + (e.step call).1.remainder =
        e.remainder + e.taken call := by
    refine ⟨trivial, ?_⟩
    cases call with
    | setValue value => simp [step, setValue, taken]
    | truncatedValue =>
        have hbound : |e.truncated| ≤ 127 := not_lt.mp (hcall rfl)
        have hconserves := e.truncates_truncatedValue.conserves hbound
        rw [zsmul_one, add_comm e.value] at hconserves
        simpa [step, taken, saturate, truncatedValue] using hconserves
  have hconserved :=
    Machine.steps_conserved remainder Int.cast taken hkeep trivial hunclamped
  exact hconserved.trans (zero_add _)

end EventValue

end Karabiner.GamePadStickConverter
