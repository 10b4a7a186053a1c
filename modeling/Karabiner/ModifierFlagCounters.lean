import Karabiner.Library.Machine
import Karabiner.ModifierFlagManager

/-!
# The counter model of the modifier flag manager

What the manager's list stands for, in its own terms: for every modifier flag and device an
integer for the plain flags, one for the sticky flags and a lock value in `{-1, 0, 1}`, and for
every modifier flag one LED bit.  Pushes count up and down, the erasures clear counters, and a
modifier is pressed when its counters sum to more than zero, the LED bit deciding where they are
all zero.

* `Refines` — the list of a manager represents given counters.
* `step_refines` — every operation keeps that, so the list is reduced along every run.
* `isPressed_iff` — `is_pressed` reads the counters.
* `isPressed_congr` — it does not depend on the order of the list.
-/

namespace Karabiner

open SignedTokens

/-- What the manager counts, flag by flag and device by device. -/
structure Counters where
  plain : ModifierFlag → DeviceId →₀ ℤ
  sticky : ModifierFlag → DeviceId →₀ ℤ
  lock : ModifierFlag → DeviceId →₀ ℤ
  led : ModifierFlag → Bool
  lock_range (m : ModifierFlag) (d : DeviceId) : -1 ≤ lock m d ∧ lock m d ≤ 1

namespace Counters

/-- The integer brought into `{-1, 0, 1}`. -/
def saturate (n : ℤ) : ℤ := max (-1) (min 1 n)

/-- A lock counts from -1 to 1. -/
theorem saturate_range (n : ℤ) : -1 ≤ saturate n ∧ saturate n ≤ 1 := by
  unfold saturate
  omega

/-- No counter is set. -/
def empty : Counters where
  plain _ := 0
  sticky _ := 0
  lock _ := 0
  led _ := false
  lock_range _ _ := by simp

/-- A plain push adds `n` to the counter of the flag and the device. -/
noncomputable def addPlain (c : Counters) (m : ModifierFlag) (d : DeviceId) (n : ℤ) : Counters :=
  { c with plain := Function.update c.plain m (c.plain m + Finsupp.single d n) }

/-- A sticky push adds `n` to the counter of the flag and the device. -/
noncomputable def addSticky (c : Counters) (m : ModifierFlag) (d : DeviceId) (n : ℤ) : Counters :=
  { c with sticky := Function.update c.sticky m (c.sticky m + Finsupp.single d n) }

/-- A lock push adds `n` to the lock value of the flag and the device, saturating. -/
noncomputable def addLock (c : Counters) (m : ModifierFlag) (d : DeviceId) (n : ℤ) : Counters :=
  { c with
    lock := Function.update c.lock m ((c.lock m).update d (saturate (c.lock m d + n)))
    lock_range := fun m' d' => by
      by_cases hm : m' = m
      · subst hm
        rw [Function.update_self, Finsupp.coe_update]
        by_cases hd : d' = d
        · subst hd
          rw [Function.update_self]
          exact saturate_range _
        · rw [Function.update_of_ne hd]
          exact c.lock_range _ _
      · rw [Function.update_of_ne hm]
        exact c.lock_range _ _ }

/-- An LED push sets or clears the bit of the flag. -/
def setLed (c : Counters) (m : ModifierFlag) (b : Bool) : Counters :=
  { c with led := Function.update c.led m b }

/-- Clear the plain counters of a device. -/
noncomputable def erasePlain (c : Counters) (d : DeviceId) : Counters :=
  { c with plain := fun m => (c.plain m).erase d }

/-- Clear all counters of a device.  The LED bits are those of device `0`. -/
noncomputable def eraseDevice (c : Counters) (d : DeviceId) : Counters where
  plain m := (c.plain m).erase d
  sticky m := (c.sticky m).erase d
  lock m := (c.lock m).erase d
  led m := d ≠ 0 && c.led m
  lock_range m d' := by
    rw [Finsupp.erase_apply]
    split_ifs
    · simp
    · exact c.lock_range m d'

/-- Clear the sticky counters of the flags that satisfy `p`. -/
def eraseSticky (c : Counters) (p : ModifierFlag → Prop) [DecidablePred p] : Counters :=
  { c with sticky := fun m => if p m then 0 else c.sticky m }

open Classical in
/-- A modifier is pressed when its counters sum to more than zero; when all of them are zero, its
LED bit decides. -/
def IsPressed (c : Counters) (m : ModifierFlag) : Prop :=
  if ∃ d, c.plain m d ≠ 0 ∨ c.sticky m d ≠ 0 ∨ c.lock m d ≠ 0 then
    0 < (c.plain m).degree + (c.sticky m).degree + (c.lock m).degree
  else c.led m = true

/-- The counters as one function. -/
noncomputable def value (c : Counters) :
    ActiveModifierFlag.Kind × ModifierFlag × DeviceId → ℤ
  | (.plain, m, d) => c.plain m d
  | (.sticky, m, d) => c.sticky m d
  | (.lock, m, d) => c.lock m d
  | (.ledLock, m, d) => if d = 0 && c.led m then 1 else 0

end Counters

namespace Counters

/-- A plain entry adds to its own counter. -/
theorem value_addPlain (c : Counters) (m : ModifierFlag) (d : DeviceId) (n : ℤ)
    (k : ActiveModifierFlag.Kind × ModifierFlag × DeviceId) :
    (c.addPlain m d n).value k = c.value k + if (.plain, m, d) = k then n else 0 := by
  obtain ⟨_ | _ | _ | _, m', d'⟩ := k <;> simp only [value, addPlain, Prod.mk.injEq]
  · by_cases hm : m' = m
    · subst hm
      by_cases hd : d = d' <;> simp [hd]
    · simp [hm, Ne.symm hm]
  all_goals simp

theorem value_addSticky (c : Counters) (m : ModifierFlag) (d : DeviceId) (n : ℤ)
    (k : ActiveModifierFlag.Kind × ModifierFlag × DeviceId) :
    (c.addSticky m d n).value k = c.value k + if (.sticky, m, d) = k then n else 0 := by
  obtain ⟨_ | _ | _ | _, m', d'⟩ := k <;> simp only [value, addSticky, Prod.mk.injEq]
  case sticky =>
    by_cases hm : m' = m
    · subst hm
      by_cases hd : d = d' <;> simp [hd]
    · simp [hm, Ne.symm hm]
  all_goals simp

/-- A lock saturates its counter. -/
theorem value_addLock (c : Counters) (m : ModifierFlag) (d : DeviceId) (n : ℤ)
    (k : ActiveModifierFlag.Kind × ModifierFlag × DeviceId) :
    (c.addLock m d n).value k =
      if (.lock, m, d) = k then saturate (c.value k + n) else c.value k := by
  obtain ⟨_ | _ | _ | _, m', d'⟩ := k <;> simp only [value, addLock, Prod.mk.injEq]
  case lock =>
    by_cases hm : m' = m
    · subst hm
      by_cases hd : d' = d
      · subst hd
        simp
      · simp [Function.update_of_ne hd, Ne.symm hd]
    · simp [Function.update_of_ne hm, Ne.symm hm]
  all_goals simp

/-- A LED entry sets its bit. -/
theorem value_setLed (c : Counters) (m : ModifierFlag) (b : Bool)
    (k : ActiveModifierFlag.Kind × ModifierFlag × DeviceId) :
    (c.setLed m b).value k =
      if (.ledLock, m, 0) = k then if b then 1 else 0 else c.value k := by
  obtain ⟨_ | _ | _ | _, m', d'⟩ := k <;> simp only [value, setLed, Prod.mk.injEq]
  case ledLock =>
    by_cases hm : m' = m
    · subst hm
      by_cases hd : 0 = d'
      · simp [← hd]
      · simp [hd, Ne.symm hd]
    · simp [Function.update_of_ne hm, Ne.symm hm]
  all_goals simp

/-- The plain counters of a device go to zero. -/
theorem value_erasePlain (c : Counters) (d : DeviceId)
    (k : ActiveModifierFlag.Kind × ModifierFlag × DeviceId) :
    (c.erasePlain d).value k = if k.1 = .plain ∧ k.2.2 = d then 0 else c.value k := by
  obtain ⟨_ | _ | _ | _, m', d'⟩ := k <;> simp [value, erasePlain, Finsupp.erase_apply]

theorem value_eraseDevice (c : Counters) (d : DeviceId)
    (k : ActiveModifierFlag.Kind × ModifierFlag × DeviceId) :
    (c.eraseDevice d).value k = if k.2.2 = d then 0 else c.value k := by
  obtain ⟨_ | _ | _ | _, m', d'⟩ := k <;> simp only [value, eraseDevice, Finsupp.erase_apply]
  case ledLock =>
    by_cases hd : d' = d
    · subst hd
      by_cases hzero : d' = 0 <;> simp [hzero]
    · by_cases hzero : d' = 0
      · subst hzero
        simp [hd, Ne.symm hd]
      · simp [hzero]

/-- The sticky counters of the flags that are chosen go to zero. -/
theorem value_eraseSticky (c : Counters) (p : ModifierFlag → Prop) [DecidablePred p]
    (k : ActiveModifierFlag.Kind × ModifierFlag × DeviceId) :
    (c.eraseSticky p).value k = if k.1 = .sticky ∧ p k.2.1 then 0 else c.value k := by
  obtain ⟨_ | _ | _ | _, m', d'⟩ := k <;> simp only [value, eraseSticky]
  case sticky => by_cases hp : p m' <;> simp [hp]
  all_goals simp

@[simp] theorem value_empty (k : ActiveModifierFlag.Kind × ModifierFlag × DeviceId) :
    empty.value k = 0 := by
  obtain ⟨_ | _ | _ | _, m', d'⟩ := k <;> simp [value, empty]

end Counters

/-! ### Runs of the manager -/

namespace ModifierFlagManager

/-- The calls of the manager that change its list. -/
inductive Operation
  | pushBackActiveModifierFlag (flag : ActiveModifierFlag)
  | eraseAllActiveModifierFlags (deviceId : DeviceId)
  | eraseAllActiveModifierFlagsExceptLockAndSticky (deviceId : DeviceId)
  | eraseCapsLockStickyModifierFlags
  | eraseAllStickyModifierFlags
  | reset
deriving DecidableEq, Repr

/-- One call. -/
def step (m : ModifierFlagManager) : Operation → ModifierFlagManager
  | .pushBackActiveModifierFlag flag => m.pushBackActiveModifierFlag flag
  | .eraseAllActiveModifierFlags d => m.eraseAllActiveModifierFlags d
  | .eraseAllActiveModifierFlagsExceptLockAndSticky d =>
    m.eraseAllActiveModifierFlagsExceptLockAndSticky d
  | .eraseCapsLockStickyModifierFlags => m.eraseCapsLockStickyModifierFlags
  | .eraseAllStickyModifierFlags => m.eraseAllStickyModifierFlags
  | .reset => m.reset

end ModifierFlagManager

namespace Counters

open ModifierFlagManager (Operation)

/-- A push, by the type of the entry. -/
noncomputable def push (c : Counters) (flag : ActiveModifierFlag) : Counters :=
  match flag.type with
  | .increase => c.addPlain flag.modifierFlag flag.deviceId 1
  | .decrease => c.addPlain flag.modifierFlag flag.deviceId (-1)
  | .increaseSticky => c.addSticky flag.modifierFlag flag.deviceId 1
  | .decreaseSticky => c.addSticky flag.modifierFlag flag.deviceId (-1)
  | .increaseLock => c.addLock flag.modifierFlag flag.deviceId 1
  | .decreaseLock => c.addLock flag.modifierFlag flag.deviceId (-1)
  | .increaseLedLock => c.setLed flag.modifierFlag true
  | .decreaseLedLock => c.setLed flag.modifierFlag false

/-- What each call means for the counters. -/
noncomputable def step (c : Counters) : Operation → Counters
  | .pushBackActiveModifierFlag flag => c.push flag
  | .eraseAllActiveModifierFlags d => c.eraseDevice d
  | .eraseAllActiveModifierFlagsExceptLockAndSticky d => c.erasePlain d
  | .eraseCapsLockStickyModifierFlags => c.eraseSticky (· = .capsLock)
  | .eraseAllStickyModifierFlags => c.eraseSticky fun _ => True
  | .reset => empty

end Counters

/-! ### The refinement -/

namespace ModifierFlagManager

open ActiveModifierFlag

/-- The list of `s` is free of pairs and sums to the counters `c`. -/
structure Refines (s : ModifierFlagManager) (c : Counters) : Prop where
  reduced : Reduced key count s.activeModifierFlags
  total_eq (k : Kind × ModifierFlag × DeviceId) :
    total key count s.activeModifierFlags k = c.value k

/-- A push that only cancels adds the entry's count to the counter it is for. -/
theorem refines_of_cancel {c : Counters} {l : List ActiveModifierFlag}
    (hl : Reduced key count l) (flag : ActiveModifierFlag)
    (hc : ∀ k, c.value k = total key count l k + if key flag = k then flag.count else 0) :
    (⟨erasePairs (l ++ [flag])⟩ : ModifierFlagManager).Refines c := by
  have heq := erasePairs_concat hl flag
  constructor
  · simpa only [heq] using hl.cancel flag
  · intro k
    simpa only [heq, total_cancel] using (hc k).symm

/-- An erasure by a property of the counted thing clears the counters with that property. -/
theorem refines_of_eraseIf {s : ModifierFlagManager} {c c' : Counters} (h : s.Refines c)
    {p : ActiveModifierFlag → Bool} (q : Kind × ModifierFlag × DeviceId → Prop) [DecidablePred q]
    (hp : ∀ f, p f = true ↔ q (key f))
    (hc' : ∀ k, c'.value k = if q k then 0 else c.value k) : (s.eraseIf p).Refines c' := by
  refine ⟨h.reduced.sublist List.filter_sublist, fun k => ?_⟩
  have hsame : ∀ f ∈ s.activeModifierFlags, key f = k → (!p f) = !decide (q k) := by
    intro f _ hk
    rw [← hk]
    by_cases hq : q (key f)
    · rw [(hp f).mpr hq, decide_eq_true hq]
    · rw [Bool.eq_false_iff.mpr (fun hpf => hq ((hp f).mp hpf)), decide_eq_false hq]
  rw [hc', eraseIf, total_filter hsame, h.total_eq]
  by_cases hq : q k <;> simp [hq]

/-- The entries of a LED are counted together, whatever their device. -/
theorem key_of_ledLock {f : ActiveModifierFlag} (h : f.ledLock = true) :
    key f = (.ledLock, f.modifierFlag, 0) := by
  rw [key, (kind_eq_ledLock_iff f).mpr h, f.led_device h]

/-- The counter of an LED bit is `0` or `1`. -/
theorem Refines.total_led {s : ModifierFlagManager} {c : Counters} (h : s.Refines c)
    (m : ModifierFlag) :
    total key count s.activeModifierFlags (.ledLock, m, 0) = if c.led m then 1 else 0 := by
  rw [h.total_eq]
  simp [Counters.value]

/-- No `decrease_led_lock` entry is ever in the list. -/
theorem Refines.type_ne_decreaseLedLock {s : ModifierFlagManager} {c : Counters}
    (h : s.Refines c) {f : ActiveModifierFlag} (hf : f ∈ s.activeModifierFlags) :
    f.type ≠ .decreaseLedLock := by
  intro htype
  have hkey := key_of_ledLock (f := f) (by simp [ledLock, ActiveModifierFlagType.ledLock, htype])
  have htotal := total_eq_length_mul signed h.reduced hf
  rw [hkey, h.total_led] at htotal
  have hpos : 0 < (s.activeModifierFlags.filter fun g =>
      key g = (.ledLock, f.modifierFlag, 0)).length :=
    List.length_pos_of_mem (List.mem_filter.mpr ⟨hf, by simp [hkey]⟩)
  have hcount : f.count = -1 := by simp [count, htype]
  rw [hcount] at htotal
  split_ifs at htotal <;> omega

/-- At most one `increase_led_lock` entry is in the list for each modifier flag. -/
theorem Refines.countP_increaseLedLock_le {s : ModifierFlagManager} {c : Counters}
    (h : s.Refines c) (m : ModifierFlag) :
    s.activeModifierFlags.countP (fun f => f.type = .increaseLedLock && f.modifierFlag = m)
      ≤ 1 := by
  by_cases hx : ∃ x ∈ s.activeModifierFlags, x.type = .increaseLedLock ∧ x.modifierFlag = m
  · obtain ⟨x, hx, htype, rfl⟩ := hx
    have hkey := key_of_ledLock (f := x)
      (by simp [ledLock, ActiveModifierFlagType.ledLock, htype])
    have htotal := total_eq_length_mul signed h.reduced hx
    have hcount : x.count = 1 := by simp [count, htype]
    rw [hkey, h.total_led, hcount] at htotal
    have hle : s.activeModifierFlags.countP
          (fun f => f.type = .increaseLedLock && f.modifierFlag = x.modifierFlag) ≤
        s.activeModifierFlags.countP fun f => key f = (.ledLock, x.modifierFlag, 0) := by
      refine List.countP_mono_left fun f _ hf => ?_
      simp only [Bool.and_eq_true, decide_eq_true_eq] at hf ⊢
      rw [key_of_ledLock (by simp [ledLock, ActiveModifierFlagType.ledLock, hf.1]), hf.2]
    rw [List.countP_eq_length_filter
      (p := fun f => decide (key f = (Kind.ledLock, x.modifierFlag, 0)))] at hle
    split_ifs at htotal <;> omega
  · refine (List.countP_eq_zero.mpr fun f hf hp => hx ⟨f, hf, ?_⟩).le.trans (Nat.zero_le 1)
    simpa using hp

/-- A plain entry counts for its device. -/
theorem refines_addPlain {s : ModifierFlagManager} {c : Counters} (h : s.Refines c)
    {flag : ActiveModifierFlag} (hkind : flag.kind = .plain) :
    (⟨erasePairs (s.activeModifierFlags ++ [flag])⟩ : ModifierFlagManager).Refines
      (c.addPlain flag.modifierFlag flag.deviceId flag.count) := by
  refine refines_of_cancel h.reduced flag fun k => ?_
  rw [Counters.value_addPlain, h.total_eq, key, hkind]

/-- A sticky entry that is stored, and may erase its pair, is one more in the counter. -/
theorem refines_addSticky {s : ModifierFlagManager} {c : Counters} (h : s.Refines c)
    {flag : ActiveModifierFlag} (hkind : flag.kind = .sticky) :
    (⟨erasePairs (s.activeModifierFlags ++ [flag])⟩ : ModifierFlagManager).Refines
      (c.addSticky flag.modifierFlag flag.deviceId flag.count) := by
  refine refines_of_cancel h.reduced flag fun k => ?_
  rw [Counters.value_addSticky, h.total_eq, key, hkind]

/-- A lock entry replaces the same entry, so the counter does not go beyond `1` or `-1`. -/
theorem refines_addLock {s : ModifierFlagManager} {c : Counters} (h : s.Refines c)
    {flag : ActiveModifierFlag} (hkind : flag.kind = .lock) :
    (⟨erasePairs (s.activeModifierFlags.filter (fun f => f ≠ flag) ++ [flag])⟩ :
      ModifierFlagManager).Refines (c.addLock flag.modifierFlag flag.deviceId flag.count) := by
  have hkey : key flag = (.lock, flag.modifierFlag, flag.deviceId) := by rw [key, hkind]
  refine refines_of_cancel (h.reduced.sublist List.filter_sublist) flag fun k => ?_
  rw [total_filter_ne signed h.reduced, h.total_eq, Counters.value_addLock, ← hkey]
  by_cases hk : key flag = k
  · have hrange : -1 ≤ c.value k ∧ c.value k ≤ 1 := by
      rw [← hk, hkey]
      exact c.lock_range flag.modifierFlag flag.deviceId
    unfold Counters.saturate
    simp only [hk, true_and, if_true]
    rcases signed.weight_eq flag with hcount | hcount
    · rw [hcount]
      split_ifs <;> omega
    · rw [hcount]
      split_ifs <;> omega
  · simp [hk]

/-- An entry that switches a LED has the key of that LED. -/
theorem key_of_type_ledLock {flag : ActiveModifierFlag}
    (htype : flag.type = .increaseLedLock ∨ flag.type = .decreaseLedLock) :
    key flag = (.ledLock, flag.modifierFlag, 0) := by
  refine key_of_ledLock ?_
  rcases htype with htype | htype <;> simp [ledLock, ActiveModifierFlagType.ledLock, htype]

/-- The entry that sets an LED bit replaces the same entry. -/
theorem refines_increaseLedLock {s : ModifierFlagManager} {c : Counters} (h : s.Refines c)
    {flag : ActiveModifierFlag} (htype : flag.type = .increaseLedLock) :
    (⟨erasePairs (s.activeModifierFlags.filter (fun f => f ≠ flag) ++ [flag])⟩ :
      ModifierFlagManager).Refines (c.setLed flag.modifierFlag true) := by
  have hkey := key_of_type_ledLock (.inl htype)
  have hcount : flag.count = 1 := by simp [count, htype]
  refine refines_of_cancel (h.reduced.sublist List.filter_sublist) flag fun k => ?_
  rw [total_filter_ne signed h.reduced, h.total_eq, Counters.value_setLed, ← hkey, hcount]
  by_cases hk : key flag = k
  · have hrange : c.value k = 0 ∨ c.value k = 1 := by
      rw [← hk, hkey]
      simp only [Counters.value]
      split_ifs <;> simp
    rcases hrange with hv | hv <;> simp [hk, hv]
  · simp [hk]

/-- The entry that clears it removes the entries that set it, and is not kept itself. -/
theorem refines_decreaseLedLock {s : ModifierFlagManager} {c : Counters} (h : s.Refines c)
    {flag : ActiveModifierFlag} (htype : flag.type = .decreaseLedLock) :
    (⟨s.activeModifierFlags.filter fun f => !f.isPaired flag⟩ : ModifierFlagManager).Refines
      (c.setLed flag.modifierFlag false) := by
  have hkey := key_of_type_ledLock (.inr htype)
  refine ⟨h.reduced.sublist List.filter_sublist, fun k => ?_⟩
  rw [Counters.value_setLed, ← hkey]
  by_cases hk : key flag = k
  · -- the bit's entries are all `increase_led_lock`, so they are all paired with `flag`
    have hall : ∀ f ∈ s.activeModifierFlags, key f = k → (!f.isPaired flag) = false := by
      intro f hf hfk
      have hled : f.ledLock = true := by
        rw [← kind_eq_ledLock_iff]
        exact congrArg Prod.fst (hfk.trans (hk.symm.trans hkey))
      have hne := h.type_ne_decreaseLedLock hf
      have hpaired : f.isPaired flag = true := by
        refine (isPaired_iff f flag).mpr ⟨hfk.trans hk.symm, ?_⟩
        cases hftype : f.type <;>
          simp_all [ledLock, ActiveModifierFlagType.ledLock, count]
      rw [hpaired]
      rfl
    rw [total_filter hall, if_pos hk]
    rfl
  · have hall : ∀ f ∈ s.activeModifierFlags, key f = k → (!f.isPaired flag) = true := by
      intro f _ hfk
      rw [Bool.not_eq_true', Bool.eq_false_iff, Ne, isPaired_iff]
      exact fun hop => hk (hop.1.symm.trans hfk)
    rw [total_filter hall, if_neg hk, h.total_eq]
    rfl

/-- A push, by the type of the entry. -/
theorem refines_push {s : ModifierFlagManager} {c : Counters} (h : s.Refines c)
    (flag : ActiveModifierFlag) : (s.pushBackActiveModifierFlag flag).Refines (c.push flag) := by
  unfold pushBackActiveModifierFlag Counters.push
  cases htype : flag.type with
  | increase =>
      have hcount : flag.count = 1 := by simp [count, htype]
      exact hcount ▸ refines_addPlain h (by simp [kind, htype])
  | decrease =>
      have hcount : flag.count = -1 := by simp [count, htype]
      exact hcount ▸ refines_addPlain h (by simp [kind, htype])
  | increaseSticky =>
      have hcount : flag.count = 1 := by simp [count, htype]
      exact hcount ▸ refines_addSticky h (by simp [kind, htype])
  | decreaseSticky =>
      have hcount : flag.count = -1 := by simp [count, htype]
      exact hcount ▸ refines_addSticky h (by simp [kind, htype])
  | increaseLock =>
      have hcount : flag.count = 1 := by simp [count, htype]
      exact hcount ▸ refines_addLock h (by simp [kind, htype])
  | decreaseLock =>
      have hcount : flag.count = -1 := by simp [count, htype]
      exact hcount ▸ refines_addLock h (by simp [kind, htype])
  | increaseLedLock => exact refines_increaseLedLock h htype
  | decreaseLedLock => exact refines_decreaseLedLock h htype

/-- **One call of the manager is one step of the counters.** -/
theorem step_refines {s : ModifierFlagManager} {c : Counters} (h : s.Refines c)
    (op : Operation) : (s.step op).Refines (c.step op) := by
  cases op with
  | pushBackActiveModifierFlag flag => exact refines_push h flag
  | eraseAllActiveModifierFlags d =>
      exact refines_of_eraseIf h (fun k => k.2.2 = d) (fun f => by simp [key])
        (Counters.value_eraseDevice c d)
  | eraseAllActiveModifierFlagsExceptLockAndSticky d =>
      refine refines_of_eraseIf h (fun k => k.1 = .plain ∧ k.2.2 = d) (fun f => ?_)
        (Counters.value_erasePlain c d)
      cases htype : f.type <;> simp [key, kind, anyLock, sticky, htype]
  | eraseCapsLockStickyModifierFlags =>
      refine refines_of_eraseIf h (fun k => k.1 = .sticky ∧ k.2.1 = .capsLock) (fun f => ?_)
        (Counters.value_eraseSticky c _)
      cases htype : f.type <;> simp [key, kind, sticky, htype]
  | eraseAllStickyModifierFlags =>
      refine refines_of_eraseIf h (fun k => k.1 = .sticky ∧ True) (fun f => ?_)
        (Counters.value_eraseSticky c fun _ => True)
      cases htype : f.type <;> simp [key, kind, sticky, htype]
  | reset => exact ⟨List.Pairwise.nil, fun k => by simp [step, reset, Counters.step]⟩

/-- The manager and the counters agree along every run of calls. -/
theorem run_refines (ops : List Operation) :
    (Machine.run step {} ops).Refines (Machine.run Counters.step Counters.empty ops) :=
  Machine.run_simulation (R := Refines) (fun _ _ op h => step_refines h op)
    ⟨List.Pairwise.nil, fun k => by simp⟩ ops

/-! ### Reading the counters -/

/-- The entries of one kind and flag sum, device by device, to that kind's counters. -/
theorem sum_kind {s : ModifierFlagManager} {c : Counters} (h : s.Refines c) (kind' : Kind)
    (m : ModifierFlag) (counter : DeviceId →₀ ℤ) (hc : ∀ d, c.value (kind', m, d) = counter d) :
    s.countSum (fun f => f.modifierFlag = m && f.kind = kind') = counter.degree := by
  have htally : tally ActiveModifierFlag.deviceId count
      (s.activeModifierFlags.filter fun f => f.modifierFlag = m && f.kind = kind') = counter := by
    ext d
    rw [tally_apply, ← hc d, ← h.total_eq, total, total, List.filter_filter]
    congr 2
    refine List.filter_congr fun f _ => ?_
    simp only [key, Prod.mk.injEq]
    by_cases hd : f.deviceId = d <;> by_cases hm : f.modifierFlag = m <;>
      by_cases hk : f.kind = kind' <;> simp [hd, hm, hk]
  rw [← htally, degree_tally]
  rfl

/-- `sum_kind` for a sum over several disjoint groups of entries. -/
theorem countSum_or (s : ModifierFlagManager) (p q : ActiveModifierFlag → Bool)
    (disjoint : ∀ f, ¬ (p f = true ∧ q f = true)) :
    s.countSum (fun f => p f || q f) = s.countSum p + s.countSum q := by
  unfold countSum
  induction s.activeModifierFlags with
  | nil => rfl
  | cons f l ih =>
      have hf := disjoint f
      cases hp : p f <;> cases hq : q f <;> simp_all <;> omega

/-- An entry of `m` outside the LED is of one of the three counted kinds. -/
theorem notLed_eq (m : ModifierFlag) (f : ActiveModifierFlag) :
    (f.modifierFlag = m && !f.ledLock) =
      ((f.modifierFlag = m && f.kind = .plain) || (f.modifierFlag = m && f.kind = .sticky) ||
        (f.modifierFlag = m && f.kind = .lock)) := by
  cases htype : f.type <;> simp [ledLock, ActiveModifierFlagType.ledLock, kind, htype]

/-- `size == 0` in `is_pressed`: all counters of the flag are zero. -/
theorem countP_notLed_eq_zero_iff {s : ModifierFlagManager} {c : Counters} (h : s.Refines c)
    (m : ModifierFlag) :
    s.activeModifierFlags.countP (fun f => f.modifierFlag = m && !f.ledLock) = 0 ↔
      ¬ ∃ d, c.plain m d ≠ 0 ∨ c.sticky m d ≠ 0 ∨ c.lock m d ≠ 0 := by
  have hzero : ∀ k, c.value k = 0 ↔ ∀ f ∈ s.activeModifierFlags, key f ≠ k := fun k => by
    rw [← h.total_eq, total_eq_zero_iff signed h.reduced]
  rw [List.countP_eq_zero]
  constructor
  · rintro hnone ⟨d, hd⟩
    have habsurd : ∀ kind', kind' ≠ .ledLock → c.value (kind', m, d) ≠ 0 → False := by
      intro kind' hkind hvalue
      obtain ⟨f, hf, hkey⟩ : ∃ f ∈ s.activeModifierFlags, key f = (kind', m, d) := by
        by_contra hno
        exact hvalue ((hzero _).mpr fun f hf hk => hno ⟨f, hf, hk⟩)
      simp only [key, Prod.mk.injEq] at hkey
      obtain ⟨rfl, rfl, -⟩ := hkey
      refine hnone f hf ?_
      rw [Ne, kind_eq_ledLock_iff] at hkind
      simpa using hkind
    rcases hd with hd | hd | hd
    · exact habsurd .plain (by decide) hd
    · exact habsurd .sticky (by decide) hd
    · exact habsurd .lock (by decide) hd
  · rintro hno f hf hp
    have hvalue : c.value (key f) ≠ 0 := fun hv => (hzero _).mp hv f hf rfl
    simp only [Bool.and_eq_true, decide_eq_true_eq, Bool.not_eq_true'] at hp
    obtain ⟨rfl, hled⟩ := hp
    refine hno ⟨f.deviceId, ?_⟩
    rw [key] at hvalue
    cases hkind : f.kind with
    | plain => exact Or.inl (by simpa [hkind, Counters.value] using hvalue)
    | sticky => exact Or.inr (Or.inl (by simpa [hkind, Counters.value] using hvalue))
    | lock => exact Or.inr (Or.inr (by simpa [hkind, Counters.value] using hvalue))
    | ledLock => exact absurd ((kind_eq_ledLock_iff f).mp hkind) (by simp [hled])

/-- The entries of a flag outside the LED sum to its counters. -/
theorem countSum_notLed {s : ModifierFlagManager} {c : Counters} (h : s.Refines c)
    (m : ModifierFlag) :
    s.countSum (fun f => f.modifierFlag = m && !f.ledLock) =
      (c.plain m).degree + (c.sticky m).degree + (c.lock m).degree := by
  have hkinds : (fun f : ActiveModifierFlag => decide (f.modifierFlag = m) && !f.ledLock) = _ :=
    funext (notLed_eq m)
  rw [hkinds, countSum_or _ _ _ (by rintro f; cases hk : f.kind <;> simp),
    countSum_or _ _ _ (by rintro f; cases hk : f.kind <;> simp),
    sum_kind h .plain m (c.plain m) fun _ => rfl, sum_kind h .sticky m (c.sticky m) fun _ => rfl,
    sum_kind h .lock m (c.lock m) fun _ => rfl]

/-- **`is_pressed` reads the counters.** -/
theorem isPressed_iff {s : ModifierFlagManager} {c : Counters} (h : s.Refines c)
    (m : ModifierFlag) : s.isPressed m = true ↔ c.IsPressed m := by
  have hled : s.countSum (fun f => f.modifierFlag = m && f.ledLock) =
      if c.led m then 1 else 0 := by
    have hkind : (fun f : ActiveModifierFlag => decide (f.modifierFlag = m) && f.ledLock) =
        fun f => f.modifierFlag = m && f.kind = .ledLock := by
      funext f
      simp [kind_eq_ledLock_iff]
    rw [hkind, sum_kind h .ledLock m (Finsupp.single 0 (if c.led m then 1 else 0)),
      Finsupp.degree_single]
    intro d
    by_cases hd : d = 0 <;> simp [Counters.value, hd]
  have hsize := countP_notLed_eq_zero_iff h m
  simp only [isPressed, Counters.IsPressed, countSum_notLed h, hled]
  by_cases hne : ∃ d, c.plain m d ≠ 0 ∨ c.sticky m d ≠ 0 ∨ c.lock m d ≠ 0
  · rw [if_neg (fun hs => hsize.mp hs hne), if_pos hne, decide_eq_true_eq, gt_iff_lt]
  · rw [if_pos (hsize.mpr hne), if_neg hne]
    cases c.led m <;> simp

/-- **The counter model.**  After any calls on a new manager its list has no paired entries, no
`decrease_led_lock` entry and at most one `increase_led_lock` entry for each flag, and
`is_pressed` is what the counters say. -/
theorem run_counterModel (ops : List Operation) :
    let s := Machine.run step {} ops
    (∀ f ∈ s.activeModifierFlags, ∀ g ∈ s.activeModifierFlags, f.isPaired g = false) ∧
      (∀ f ∈ s.activeModifierFlags, f.type ≠ .decreaseLedLock) ∧
      (∀ m, s.activeModifierFlags.countP
        (fun f => f.type = .increaseLedLock && f.modifierFlag = m) ≤ 1) ∧
      ∀ m, s.isPressed m = true ↔
        (Machine.run Counters.step Counters.empty ops).IsPressed m := by
  intro s
  have h : s.Refines (Machine.run Counters.step Counters.empty ops) := run_refines ops
  refine ⟨fun f hf g hg => ?_, fun f hf => h.type_ne_decreaseLedLock hf,
    h.countP_increaseLedLock_le, isPressed_iff h⟩
  rw [Bool.eq_false_iff, Ne, isPaired_iff]
  exact h.reduced.not_opposite signed hf hg

/-! ### Independence of the order -/

/-- `is_pressed` does not depend on the order of the list. -/
theorem isPressed_perm {s t : ModifierFlagManager}
    (h : s.activeModifierFlags.Perm t.activeModifierFlags) (m : ModifierFlag) :
    s.isPressed m = t.isPressed m := by
  have hsum : ∀ p, s.countSum p = t.countSum p := fun p => ((h.filter p).map count).sum_eq
  simp only [isPressed, hsum, h.countP_eq]

/-- `sticky_size` does not depend on the order of the list. -/
theorem stickySize_perm {s t : ModifierFlagManager}
    (h : s.activeModifierFlags.Perm t.activeModifierFlags) (m : ModifierFlag) :
    s.stickySize m = t.stickySize m := h.countP_eq _

/-- Two managers have the same entries, up to their order. -/
def Agree (s t : ModifierFlagManager) : Prop := ∃ c, s.Refines c ∧ t.Refines c

/-- Managers that agree have the same entries, up to their order. -/
theorem Agree.perm {s t : ModifierFlagManager} (h : s.Agree t) :
    s.activeModifierFlags.Perm t.activeModifierFlags := by
  obtain ⟨c, hs, ht⟩ := h
  exact perm_of_total_eq signed hs.reduced ht.reduced fun k =>
    (hs.total_eq k).trans (ht.total_eq k).symm

theorem Agree.step {s t : ModifierFlagManager} (h : s.Agree t) (op : Operation) :
    (s.step op).Agree (t.step op) := by
  obtain ⟨c, hs, ht⟩ := h
  exact ⟨c.step op, step_refines hs op, step_refines ht op⟩

/-- A plain entry that is pushed adds its count. -/
theorem value_push_plain (c : Counters) {flag : ActiveModifierFlag} (h : flag.kind = .plain)
    (k : Kind × ModifierFlag × DeviceId) :
    (c.push flag).value k = c.value k + if key flag = k then flag.count else 0 := by
  have hkey : key flag = (.plain, flag.modifierFlag, flag.deviceId) := by simp only [key, h]
  rw [hkey]
  cases htype : flag.type <;> simp only [kind, htype, reduceCtorEq] at h
  · simp only [Counters.push, htype, Counters.value_addPlain, count]
  · simp only [Counters.push, htype, Counters.value_addPlain, count]

/-- Plain pushes add up. -/
theorem value_foldl_push (c : Counters) {flags : List ActiveModifierFlag}
    (h : ∀ f ∈ flags, f.kind = .plain) (k : Kind × ModifierFlag × DeviceId) :
    (flags.foldl Counters.push c).value k = c.value k + total key count flags k := by
  induction flags generalizing c with
  | nil => simp
  | cons f flags ih =>
      rw [List.foldl_cons, ih _ fun g hg => h g (List.mem_cons_of_mem _ hg),
        value_push_plain c (h f List.mem_cons_self), total_cons]
      omega

/-- Several pushes in a row. -/
theorem refines_foldl_push {s : ModifierFlagManager} {c : Counters} (h : s.Refines c)
    (flags : List ActiveModifierFlag) :
    (flags.foldl pushBackActiveModifierFlag s).Refines (flags.foldl Counters.push c) := by
  induction flags generalizing s c with
  | nil => exact h
  | cons f flags ih => exact ih (refines_push h f)

/-- **A plain entry and its inverse leave nothing behind**, whatever plain entries are pushed
between them. -/
theorem agree_insert_pair {s : ModifierFlagManager} {c : Counters} (h : s.Refines c)
    {flags : List ActiveModifierFlag} (hflags : ∀ f ∈ flags, f.kind = .plain)
    {f g : ActiveModifierFlag} (hf : f.kind = .plain) (hg : g.kind = .plain)
    (hpaired : f.isPaired g = true) :
    ((f :: flags ++ [g]).foldl pushBackActiveModifierFlag s).Agree
      (flags.foldl pushBackActiveModifierFlag s) := by
  obtain ⟨hkey, hcount⟩ := (isPaired_iff f g).mp hpaired
  have hall : ∀ x ∈ f :: flags ++ [g], x.kind = .plain := by
    intro x hx
    rw [List.cons_append, List.mem_cons, List.mem_append, List.mem_singleton] at hx
    rcases hx with rfl | hx | rfl
    · exact hf
    · exact hflags x hx
    · exact hg
  have hlong := refines_foldl_push h (f :: flags ++ [g])
  have hshort := refines_foldl_push h flags
  refine ⟨_, hlong, hshort.reduced, fun k => (hshort.total_eq k).trans ?_⟩
  rw [value_foldl_push c hflags, value_foldl_push c hall, List.cons_append, total_cons,
    total_append, total_cons, total_nil, hkey]
  split_ifs <;> omega

end ModifierFlagManager

end Karabiner
