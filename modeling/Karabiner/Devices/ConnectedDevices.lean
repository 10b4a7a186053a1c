import Karabiner.Devices.DeviceProperties
import Karabiner.Library.StdSort
import Mathlib.Data.String.Basic
import Mathlib.Order.BooleanAlgebra.Basic

/-!
# Connected devices

`share/connected_devices/connected_devices.hpp`: a list of the properties of all devices.  A device
whose identifiers are already there is not added, and the list is sorted after every addition.

* `DeviceProperties.compare_iff` — the comparison is the lexicographic order of seven fields.
* `Canonical` — sorted, with different identifiers.
* `connectedDevices_canonical` — **the list is canonical** after any additions, and devices that can
  be told apart give the same list in whatever order they are added.
-/

namespace Karabiner.Devices

/-! ### The comparison -/

namespace DeviceProperties

/-- `compare`. -/
def compare (p other : DeviceProperties) : Bool :=
  if p.product ≠ other.product then p.product < other.product
  else if p.manufacturer ≠ other.manufacturer then p.manufacturer < other.manufacturer
  else if p.deviceIdentifiers.isKeyboard ≠ other.deviceIdentifiers.isKeyboard
  then p.deviceIdentifiers.isKeyboard
  else if p.deviceIdentifiers.isPointingDevice ≠ other.deviceIdentifiers.isPointingDevice
  then p.deviceIdentifiers.isPointingDevice
  else if p.deviceIdentifiers.isGamePad ≠ other.deviceIdentifiers.isGamePad
  then p.deviceIdentifiers.isGamePad
  else if p.deviceIdentifiers.isConsumer ≠ other.deviceIdentifiers.isConsumer
  then p.deviceIdentifiers.isConsumer
  else if p.deviceId ≠ other.deviceId then p.deviceId < other.deviceId
  else false

/-- What is compared, one field after another.  A device that is of a kind comes before one that is
not. -/
def sortKey (p : DeviceProperties) :
    String ×ₗ String ×ₗ Bool ×ₗ Bool ×ₗ Bool ×ₗ Bool ×ₗ ℕ :=
  toLex (p.product, toLex (p.manufacturer, toLex (!p.deviceIdentifiers.isKeyboard,
    toLex (!p.deviceIdentifiers.isPointingDevice, toLex (!p.deviceIdentifiers.isGamePad,
      toLex (!p.deviceIdentifiers.isConsumer, p.deviceId.toNat))))))

/-- **The comparison is the lexicographic order** of the fields. -/
theorem compare_iff (p other : DeviceProperties) :
    p.compare other = true ↔ p.sortKey < other.sortKey := by
  have hflag {a b : Bool} : a ≠ b ↔ (!a) ≠ (!b) := by cases a <;> cases b <;> decide
  have hfirst {a b : Bool} (h : (!a) ≠ (!b)) : a = true ↔ (!a) < (!b) := by
    cases a <;> cases b <;> first | exact absurd rfl h | decide
  have hid : (if p.deviceId ≠ other.deviceId then decide (p.deviceId < other.deviceId) else false) =
      true ↔ p.deviceId.toNat < other.deviceId.toNat := by
    rw [← UInt64.lt_iff_toNat_lt]
    by_cases hid : p.deviceId = other.deviceId
    · rw [if_neg (not_not.mpr hid), hid]
      exact iff_of_false Bool.false_ne_true (UInt64.lt_irrefl _)
    · rw [if_pos hid]
      exact decide_eq_true_iff
  unfold compare sortKey
  refine Prod.Lex.ite_lt_iff Iff.rfl (fun _ => decide_eq_true_iff) ?_
  refine Prod.Lex.ite_lt_iff Iff.rfl (fun _ => decide_eq_true_iff) ?_
  refine Prod.Lex.ite_lt_iff hflag hfirst ?_
  refine Prod.Lex.ite_lt_iff hflag hfirst ?_
  refine Prod.Lex.ite_lt_iff hflag hfirst ?_
  exact Prod.Lex.ite_lt_iff hflag hfirst hid

theorem compare_self (p : DeviceProperties) : p.compare p = false :=
  Bool.eq_false_iff.mpr fun h => lt_irrefl _ ((compare_iff p p).mp h)

theorem compare_trans {a b c : DeviceProperties} (hab : a.compare b = true)
    (hbc : b.compare c = true) : a.compare c = true :=
  (compare_iff a c).mpr (((compare_iff a b).mp hab).trans ((compare_iff b c).mp hbc))

theorem deviceId_eq_of_sortKey_eq {a b : DeviceProperties} (h : a.sortKey = b.sortKey) :
    a.deviceId = b.deviceId := by
  simp only [sortKey, toLex_inj, Prod.mk.injEq] at h
  exact UInt64.toNat_inj.mp h.2.2.2.2.2.2

/-- Devices with different ids are ordered. -/
theorem compare_total {a b : DeviceProperties} (hid : a.deviceId ≠ b.deviceId) :
    a.compare b = true ∨ b.compare a = true := by
  rw [compare_iff, compare_iff]
  exact lt_or_gt_of_ne fun h => hid (deviceId_eq_of_sortKey_eq h)

/-- The comparison is one that `std::sort` accepts. -/
instance : Nonempty (StdSort compare) := ⟨.ofKey sortKey compare_iff⟩

end DeviceProperties

/-! ### The list -/

/-- `connected_devices`. -/
structure ConnectedDevices where
  devices : List DeviceProperties := []

namespace ConnectedDevices

/-- `find_device`. -/
def findDevice (identifiers : CoreConfiguration.DeviceIdentifiers) (c : ConnectedDevices) :
    Option DeviceProperties :=
  c.devices.find? fun d => d.deviceIdentifiers.same identifiers

variable (s : StdSort DeviceProperties.compare)

/-- `push_back_device`. -/
def pushBackDevice (c : ConnectedDevices) (device : DeviceProperties) : ConnectedDevices :=
  if (c.findDevice device.deviceIdentifiers).isSome then c
  else { devices := s.sort (c.devices ++ [device]) }

/-- The list is sorted, and no two devices have the same identifiers. -/
structure Canonical (c : ConnectedDevices) : Prop where
  sorted : c.devices.Pairwise fun a b => b.compare a = false
  distinct : c.devices.Pairwise fun a b => a.deviceIdentifiers.same b.deviceIdentifiers = false

theorem findDevice_isSome_eq_false_iff {identifiers : CoreConfiguration.DeviceIdentifiers}
    {c : ConnectedDevices} : ¬(c.findDevice identifiers).isSome ↔
      ∀ d ∈ c.devices, d.deviceIdentifiers.same identifiers = false := by
  simp [findDevice]

/-- Whether the identifiers are different does not depend on the order. -/
theorem pairwise_same_iff {devices devices' : List DeviceProperties}
    (hperm : devices.Perm devices') :
    (devices.Pairwise fun a b => a.deviceIdentifiers.same b.deviceIdentifiers = false) ↔
      devices'.Pairwise fun a b => a.deviceIdentifiers.same b.deviceIdentifiers = false := by
  refine hperm.pairwise_iff fun hab => ?_
  rw [CoreConfiguration.DeviceIdentifiers.same_comm, hab]

/-- One addition. -/
theorem Canonical.pushBackDevice {c : ConnectedDevices} (h : c.Canonical)
    (device : DeviceProperties) : (c.pushBackDevice s device).Canonical := by
  unfold ConnectedDevices.pushBackDevice
  split_ifs with hfind
  · exact h
  · have hnew := findDevice_isSome_eq_false_iff.mp hfind
    have happend : (c.devices ++ [device]).Pairwise fun a b =>
        a.deviceIdentifiers.same b.deviceIdentifiers = false := by
      refine List.pairwise_append.mpr ⟨h.distinct, List.pairwise_singleton _ _, ?_⟩
      intro a ha b hb
      obtain rfl := List.mem_singleton.mp hb
      exact hnew a ha
    exact ⟨s.sorted _, (pairwise_same_iff (s.perm _)).mpr happend⟩

/-- Any additions. -/
theorem canonical_foldl (pushed : List DeviceProperties) {c : ConnectedDevices} (h : c.Canonical) :
    (pushed.foldl (ConnectedDevices.pushBackDevice s) c).Canonical := by
  induction pushed generalizing c with
  | nil => exact h
  | cons device pushed ih => exact ih (h.pushBackDevice s device)

/-- Devices with different identifiers are all added. -/
theorem perm_foldl (pushed : List DeviceProperties) {c : ConnectedDevices}
    (hdistinct : (c.devices ++ pushed).Pairwise fun a b =>
      a.deviceIdentifiers.same b.deviceIdentifiers = false) :
    (pushed.foldl (pushBackDevice s) c).devices.Perm (c.devices ++ pushed) := by
  induction pushed generalizing c with
  | nil => simp
  | cons device pushed ih =>
      have hnew : ¬(c.findDevice device.deviceIdentifiers).isSome :=
        findDevice_isSome_eq_false_iff.mpr fun d hd =>
          (List.pairwise_append.mp hdistinct).2.2 d hd device List.mem_cons_self
      have hpush : c.pushBackDevice s device = { devices := s.sort (c.devices ++ [device]) } :=
        if_neg hnew
      have hperm : (s.sort (c.devices ++ [device]) ++ pushed).Perm
          (c.devices ++ device :: pushed) :=
        ((s.perm _).append_right pushed).trans (.of_eq (List.append_assoc ..))
      rw [List.foldl_cons, hpush]
      exact (ih ((pairwise_same_iff hperm).mpr hdistinct)).trans hperm

/-- Devices that can be told apart have one list. -/
theorem foldl_eq_of_perm {pushed pushed' : List DeviceProperties} (hperm : pushed.Perm pushed')
    (hdistinct : pushed.Pairwise fun a b =>
      a.deviceIdentifiers.same b.deviceIdentifiers = false ∧ a.deviceId ≠ b.deviceId) :
    pushed.foldl (pushBackDevice s) {} = pushed'.foldl (pushBackDevice s) {} := by
  have hsame : pushed.Pairwise fun a b => a.deviceIdentifiers.same b.deviceIdentifiers = false :=
    hdistinct.imp And.left
  have hids : (pushed.map DeviceProperties.deviceId).Nodup :=
    List.pairwise_map.mpr (hdistinct.imp And.right)
  have hlist := perm_foldl s pushed (c := {}) hsame
  have hlist' := (perm_foldl s pushed' (c := {}) ((pairwise_same_iff hperm).mp hsame)).trans
    hperm.symm
  have hcanonical := canonical_foldl s pushed (c := {}) ⟨.nil, .nil⟩
  have hcanonical' := canonical_foldl s pushed' (c := {}) ⟨.nil, .nil⟩
  refine congrArg ConnectedDevices.mk (List.Perm.eq_of_pairwise (fun a b ha hb hab hba => ?_)
    hcanonical.sorted hcanonical'.sorted (hlist.trans hlist'.symm))
  -- Neither is less than the other, so they have one id.
  refine List.inj_on_of_nodup_map hids (hlist.mem_iff.mp ha) (hlist'.mem_iff.mp hb) ?_
  by_contra hid
  rcases DeviceProperties.compare_total hid with h | h
  · rw [h] at hba
    cases hba
  · rw [h] at hab
    cases hab

/-- **The list is canonical** after any additions; devices with different identifiers and ids give
the same list in whatever order they are added; and the comparison orders these devices. -/
theorem connectedDevices_canonical :
    (∀ pushed : List DeviceProperties,
      let devices := (pushed.foldl (pushBackDevice s) {}).devices
      (devices.Pairwise fun a b => b.compare a = false) ∧
        devices.Pairwise fun a b => a.deviceIdentifiers.same b.deviceIdentifiers = false) ∧
    (∀ pushed pushed' : List DeviceProperties, pushed.Perm pushed' →
      (pushed.Pairwise fun a b => a.deviceIdentifiers.same b.deviceIdentifiers = false ∧
        a.deviceId ≠ b.deviceId) →
      pushed.foldl (pushBackDevice s) {} = pushed'.foldl (pushBackDevice s) {}) ∧
    (∀ a : DeviceProperties, a.compare a = false) ∧
    (∀ a b c : DeviceProperties, a.compare b = true → b.compare c = true → a.compare c = true) ∧
    ∀ a b : DeviceProperties, a.deviceId ≠ b.deviceId →
      a.compare b = true ∨ b.compare a = true := by
  refine ⟨fun pushed => ?_, fun _ _ => foldl_eq_of_perm s, DeviceProperties.compare_self,
    fun _ _ _ => DeviceProperties.compare_trans, fun _ _ => DeviceProperties.compare_total⟩
  have hcanonical := canonical_foldl s pushed (c := {}) ⟨.nil, .nil⟩
  exact ⟨hcanonical.sorted, hcanonical.distinct⟩

omit s in
/-- A keyboard and a mouse, which are told apart by their kinds and their ids, give the same two
devices in both orders. -/
theorem connectedDevices_canonical_keyboardAndMouse :
    let s : StdSort DeviceProperties.compare := .ofKey DeviceProperties.sortKey
      DeviceProperties.compare_iff
    let keyboard := DeviceProperties.make { deviceId := 2, isKeyboard := true }
    let mouse := DeviceProperties.make { deviceId := 1, isPointingDevice := true }
    [keyboard, mouse].foldl (pushBackDevice s) {} =
        [mouse, keyboard].foldl (pushBackDevice s) {} ∧
      ([keyboard, mouse].foldl (pushBackDevice s) {}).devices.length = 2 := by
  intro s keyboard mouse
  have hdistinct : [keyboard, mouse].Pairwise fun a b =>
      a.deviceIdentifiers.same b.deviceIdentifiers = false ∧ a.deviceId ≠ b.deviceId :=
    List.pairwise_pair.mpr ⟨by decide, by decide⟩
  exact ⟨(connectedDevices_canonical s).2.1 _ _ (.swap mouse keyboard []) hdistinct,
    (perm_foldl s [keyboard, mouse] (c := {}) (hdistinct.imp And.left)).length_eq⟩

end ConnectedDevices

end Karabiner.Devices
