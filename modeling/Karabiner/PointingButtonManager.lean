import Karabiner.Types
import Mathlib.Algebra.BigOperators.Group.List.Basic
import Mathlib.Algebra.Order.Ring.Int
import Mathlib.Data.Nat.Cast.Order.Ring

/-!
# The pointing button manager

`share/pointing_button_manager.hpp`: the buttons of the pointing devices that are pressed.

* `PointingButtonManager.holds_pushBack` — **what an entry changes**: a press adds its own device, a
  release removes the button from all devices.
* `PointingButtonManager.mem_makeHidReportButtons` — the buttons of a report are those that a device
  holds, as long as no decrease entry is stored.
-/

namespace Karabiner

/-- `active_pointing_button::type`. -/
inductive ActivePointingButtonType
  | increase
  | decrease
deriving DecidableEq, Repr

namespace ActivePointingButtonType

/-- `get_inverse_type`. -/
def inverse : ActivePointingButtonType → ActivePointingButtonType
  | increase => decrease
  | decrease => increase

end ActivePointingButtonType

/-- `active_pointing_button`. -/
structure ActivePointingButton where
  type : ActivePointingButtonType
  usagePair : UsagePair
  deviceId : DeviceId
deriving DecidableEq, Repr

namespace ActivePointingButton

/-- `get_count`. -/
def count (b : ActivePointingButton) : ℤ := if b.type = .increase then 1 else -1

/-- `is_paired`, which ignores the device. -/
def isPaired (b other : ActivePointingButton) : Bool :=
  b.type = other.type.inverse && b.usagePair = other.usagePair

end ActivePointingButton

/-- `pointing_button_manager`. -/
structure PointingButtonManager where
  activePointingButtons : List ActivePointingButton := []
deriving DecidableEq, Repr

namespace PointingButtonManager

/-- `push_back_active_pointing_button`. -/
def pushBackActivePointingButton (m : PointingButtonManager) (button : ActivePointingButton) :
    PointingButtonManager :=
  if button.usagePair.usage = Usage.undefined then m
  else match button.type with
    | .increase => ⟨m.activePointingButtons ++ [button]⟩
    | .decrease =>
      -- Erase all paired entries: the same button may have been pushed twice.
      ⟨m.activePointingButtons.filter fun b => !b.isPaired button⟩

/-- `erase_all_active_pointing_buttons`. -/
def eraseAllActivePointingButtons (m : PointingButtonManager) (deviceId : DeviceId) :
    PointingButtonManager :=
  ⟨m.activePointingButtons.filter fun b => b.deviceId ≠ deviceId⟩

/-- `erase_all_active_pointing_buttons_except_lock`. -/
def eraseAllActivePointingButtonsExceptLock (m : PointingButtonManager) (deviceId : DeviceId) :
    PointingButtonManager :=
  m.eraseAllActivePointingButtons deviceId

/-- `is_pressed`. -/
def isPressed (m : PointingButtonManager) (usagePair : UsagePair) : Bool :=
  ((m.activePointingButtons.filter fun b => b.usagePair = usagePair).map
    ActivePointingButton.count).sum > 0

/-- The buttons that `make_hid_report_buttons` inserts: which of 1 to 32 are pressed, in order. -/
def makeHidReportButtons (m : PointingButtonManager) : List ℕ :=
  (List.range' 1 32).filter fun n => m.isPressed ⟨UsagePage.button, n⟩

/-! ### What is stored -/

/-- The device has pressed the button. -/
def Holds (m : PointingButtonManager) (deviceId : DeviceId) (usagePair : UsagePair) : Prop :=
  ⟨.increase, usagePair, deviceId⟩ ∈ m.activePointingButtons

/-- No decrease entry is stored. -/
def OnlyIncreases (m : PointingButtonManager) : Prop :=
  ∀ b ∈ m.activePointingButtons, b.type = .increase

theorem onlyIncreases_pushBack {m : PointingButtonManager} (h : m.OnlyIncreases)
    (button : ActivePointingButton) : (m.pushBackActivePointingButton button).OnlyIncreases := by
  unfold pushBackActivePointingButton
  split_ifs
  · exact h
  · split
    next htype =>
      intro b hb
      rcases List.mem_append.mp hb with hb | hb
      · exact h b hb
      · rw [List.mem_singleton.mp hb, htype]
    next => exact fun b hb => h b (List.mem_filter.mp hb).1

theorem onlyIncreases_eraseAll {m : PointingButtonManager} (h : m.OnlyIncreases)
    (deviceId : DeviceId) : (m.eraseAllActivePointingButtons deviceId).OnlyIncreases :=
  fun b hb => h b (List.mem_filter.mp hb).1

/-- **What an entry changes** for a button. -/
theorem holds_pushBack (m : PointingButtonManager) (button : ActivePointingButton)
    (deviceId : DeviceId) {p : UsagePair} (hp : p.usage ≠ Usage.undefined) :
    (m.pushBackActivePointingButton button).Holds deviceId p ↔
      (button.type = .increase ∧ button.deviceId = deviceId ∧ button.usagePair = p) ∨
        m.Holds deviceId p ∧ ¬(button.type = .decrease ∧ button.usagePair = p) := by
  obtain ⟨type, p', deviceId'⟩ := button
  unfold pushBackActivePointingButton Holds
  by_cases hundefined : p'.usage = Usage.undefined
  · have hne : p' ≠ p := by
      rintro rfl
      exact hp hundefined
    simp [hundefined, hne]
  · cases type with
    | increase =>
        simp only [hundefined, if_false, List.mem_append, List.mem_singleton,
          ActivePointingButton.mk.injEq, true_and, reduceCtorEq, false_and, not_false_eq_true,
          and_true]
        rw [or_comm, and_comm (a := deviceId' = deviceId), eq_comm (a := p),
          eq_comm (a := deviceId)]
    | decrease =>
        simp only [hundefined, if_false, List.mem_filter, reduceCtorEq, false_and, false_or,
          true_and, ActivePointingButton.isPaired, ActivePointingButtonType.inverse,
          decide_true, Bool.true_and, Bool.not_eq_true', decide_eq_false_iff_not]
        rw [eq_comm (a := p)]

theorem holds_eraseAll (m : PointingButtonManager) (deviceId' deviceId : DeviceId)
    (p : UsagePair) :
    (m.eraseAllActivePointingButtons deviceId').Holds deviceId p ↔
      m.Holds deviceId p ∧ deviceId ≠ deviceId' := by
  simp [eraseAllActivePointingButtons, Holds]

/-! ### What is reported -/

theorem range_of_mem_makeHidReportButtons (m : PointingButtonManager) {n : ℕ}
    (h : n ∈ m.makeHidReportButtons) : 1 ≤ n ∧ n ≤ 32 := by
  have hrange := List.mem_range'_1.mp (List.mem_filter.mp h).1
  omega

/-- Without decrease entries the count of a button is the number of its entries. -/
theorem isPressed_iff {m : PointingButtonManager} (h : m.OnlyIncreases) (p : UsagePair) :
    m.isPressed p = true ↔ ∃ deviceId, m.Holds deviceId p := by
  let entries := m.activePointingButtons.filter fun b => b.usagePair = p
  have hcounts : entries.map ActivePointingButton.count = List.replicate entries.length 1 := by
    refine List.eq_replicate_iff.mpr ⟨List.length_map _, fun n hn => ?_⟩
    obtain ⟨b, hb, rfl⟩ := List.mem_map.mp hn
    rw [ActivePointingButton.count, if_pos (h b (List.mem_filter.mp hb).1)]
  have hsum : (entries.map ActivePointingButton.count).sum = entries.length := by
    rw [hcounts, List.sum_replicate, nsmul_eq_mul, mul_one]
  rw [isPressed, decide_eq_true_eq, hsum, gt_iff_lt, Nat.cast_pos, List.length_pos_iff_exists_mem]
  constructor
  · rintro ⟨b, hb⟩
    obtain ⟨hmem, hp⟩ := List.mem_filter.mp hb
    obtain ⟨type, p', deviceId⟩ := b
    obtain rfl : type = .increase := h _ hmem
    obtain rfl : p' = p := of_decide_eq_true hp
    exact ⟨deviceId, hmem⟩
  · rintro ⟨deviceId, hmem⟩
    exact ⟨_, List.mem_filter.mpr ⟨hmem, decide_eq_true rfl⟩⟩

/-- **The buttons of a report** are those that a device holds. -/
theorem mem_makeHidReportButtons {m : PointingButtonManager} (h : m.OnlyIncreases) {n : ℕ}
    (low : 1 ≤ n) (high : n ≤ 32) :
    n ∈ m.makeHidReportButtons ↔ ∃ deviceId, m.Holds deviceId ⟨UsagePage.button, n⟩ := by
  rw [makeHidReportButtons, List.mem_filter, isPressed_iff h, List.mem_range'_1]
  exact and_iff_right ⟨low, by omega⟩

end PointingButtonManager

end Karabiner
