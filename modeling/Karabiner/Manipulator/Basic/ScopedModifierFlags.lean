import Karabiner.Manipulator.Basic.EventSender
import Karabiner.ModifierFlagCounters

/-!
# The scope of `scoped_modifier_flags`

`modifier_flag_manager/scoped_modifier_flags.hpp`: the constructor pushes entries until exactly a
given set of modifiers is pressed, and the destructor pushes the inverse of each of them.  The
pushes meet the stored entries in two ways: an entry of device `0` cancels, an entry of another
device is stored next to the one it outweighs, and an LED entry is not stored but clears a bit.

On the counters only this is left:

* `Counters.sum` — a modifier without locks is pressed when its entries sum to more than zero, or
  when it has none and its LED bit is set (`isPressed_of_sum_pos`).
* `increasesUntilPressed` — the loop of the constructor ends, because each of its pushes adds one
  to the sum.
* `Undoable` — what the constructor pushes: no locks, and LED entries only to clear a bit that was
  set.  Such pushes are undone by their inverses (`agree_inverse`).
* `run_scopedModifierFlags` — the scope sets and restores exactly.
-/

namespace Karabiner

open SignedTokens

/-! ### Sums of a modifier's counters -/

namespace Counters

open ActiveModifierFlag

/-- The sum of the counters of a modifier, without its LED bit. -/
noncomputable def sum (c : Counters) (m : ModifierFlag) : ℤ :=
  (c.plain m).degree + (c.sticky m).degree + (c.lock m).degree

/-- All counters of a modifier are zero. -/
theorem sum_eq_zero {c : Counters} {m : ModifierFlag}
    (h : ¬ ∃ d, c.plain m d ≠ 0 ∨ c.sticky m d ≠ 0 ∨ c.lock m d ≠ 0) : c.sum m = 0 := by
  push Not at h
  have hplain : c.plain m = 0 := Finsupp.ext fun d => (h d).1
  have hsticky : c.sticky m = 0 := Finsupp.ext fun d => (h d).2.1
  have hlock : c.lock m = 0 := Finsupp.ext fun d => (h d).2.2
  simp [sum, hplain, hsticky, hlock]

/-- A flag with a positive sum is pressed. -/
theorem isPressed_of_sum_pos {c : Counters} {m : ModifierFlag} (h : 0 < c.sum m) :
    c.IsPressed m := by
  unfold IsPressed
  split_ifs with hne
  · exact h
  · rw [sum_eq_zero hne] at h
    exact absurd h (lt_irrefl 0)

/-- A modifier whose entries sum to zero is not pressed once its LED bit is cleared. -/
theorem not_isPressed {c : Counters} {m : ModifierFlag} (hsum : c.sum m = 0)
    (hled : c.led m = false) : ¬ c.IsPressed m := by
  unfold IsPressed
  split_ifs with hne
  · rw [show (c.plain m).degree + (c.sticky m).degree + (c.lock m).degree = 0 from hsum]
    exact lt_irrefl 0
  · simp [hled]

/-! ### Pushes without locks -/

/-- A push changes the counters of its own modifier only. -/
theorem push_frame (c : Counters) {flag : ActiveModifierFlag} {m : ModifierFlag}
    (h : flag.modifierFlag ≠ m) :
    (c.push flag).plain m = c.plain m ∧ (c.push flag).sticky m = c.sticky m ∧
      (c.push flag).lock m = c.lock m ∧ (c.push flag).led m = c.led m := by
  have hne : m ≠ flag.modifierFlag := h.symm
  unfold push
  split <;> simp [addPlain, addSticky, addLock, setLed, Function.update_of_ne hne]

theorem isPressed_push_of_ne (c : Counters) {flag : ActiveModifierFlag} {m : ModifierFlag}
    (h : flag.modifierFlag ≠ m) : (c.push flag).IsPressed m ↔ c.IsPressed m := by
  obtain ⟨hplain, hsticky, hlock, hled⟩ := push_frame c h
  unfold IsPressed
  rw [hplain, hsticky, hlock, hled]

/-- An entry that is no lock adds its count to the sum of its flag. -/
theorem sum_push (c : Counters) {flag : ActiveModifierFlag} (hlock : flag.kind ≠ .lock)
    (m : ModifierFlag) :
    (c.push flag).sum m =
      c.sum m + if flag.modifierFlag = m && !flag.ledLock then flag.count else 0 := by
  by_cases hm : flag.modifierFlag = m
  · subst hm
    unfold push
    split <;> rename_i htype <;> simp only [kind, htype, ne_eq, not_true_eq_false] at hlock <;>
      simp [sum, addPlain, addSticky, setLed, ledLock, ActiveModifierFlagType.ledLock, count,
        htype] <;> ring
  · obtain ⟨hplain, hsticky, hlock, -⟩ := push_frame c hm
    simp [sum, hplain, hsticky, hlock, hm]

/-- A LED entry sets the bit of its flag. -/
theorem led_push (c : Counters) (flag : ActiveModifierFlag) (m : ModifierFlag) :
    (c.push flag).led m =
      if flag.ledLock && flag.modifierFlag = m then decide (flag.type = .increaseLedLock)
      else c.led m := by
  by_cases hm : flag.modifierFlag = m
  · subst hm
    unfold push
    split <;> rename_i htype <;>
      simp [addPlain, addSticky, addLock, setLed, ledLock, ActiveModifierFlagType.ledLock, htype]
  · simp [(push_frame c hm).2.2.2, hm]

/-- Pushes without locks add up, for every counter outside the LED bits. -/
theorem value_foldl_push_of_ne_lock (c : Counters) {flags : List ActiveModifierFlag}
    (hlock : ∀ f ∈ flags, f.kind ≠ .lock) {k : Kind × ModifierFlag × DeviceId}
    (hk : k.1 ≠ .ledLock) :
    (flags.foldl push c).value k = c.value k + total key count flags k := by
  induction flags generalizing c with
  | nil => simp
  | cons f flags ih =>
      have hf := hlock f List.mem_cons_self
      have hpush : (c.push f).value k = c.value k + if key f = k then f.count else 0 := by
        obtain ⟨k, m, d⟩ := k
        unfold push
        split <;> rename_i htype <;> simp only [kind, htype, ne_eq, not_true_eq_false] at hf <;>
          simp only [value_addPlain, value_addSticky, value_setLed, key, kind, htype, count,
            Prod.mk.injEq, Ne.symm hk, false_and, if_false, add_zero]
      rw [List.foldl_cons, ih _ fun g hg => hlock g (List.mem_cons_of_mem _ hg), hpush, total_cons]
      omega

/-- Several entries add their counts. -/
theorem sum_foldl_push (c : Counters) {flags : List ActiveModifierFlag}
    (hlock : ∀ f ∈ flags, f.kind ≠ .lock) (m : ModifierFlag) :
    (flags.foldl push c).sum m = c.sum m +
      ((flags.filter fun f => f.modifierFlag = m && !f.ledLock).map count).sum := by
  induction flags generalizing c with
  | nil => simp
  | cons f flags ih =>
      rw [List.foldl_cons, ih _ fun g hg => hlock g (List.mem_cons_of_mem _ hg),
        sum_push c (hlock f List.mem_cons_self)]
      by_cases hf : (f.modifierFlag = m && !f.ledLock) = true
      · rw [List.filter_cons_of_pos (by simpa using hf), List.map_cons, List.sum_cons, if_pos hf]
        ring
      · rw [List.filter_cons_of_neg (by simpa using hf), if_neg hf, add_zero]

/-- Pushes whose LED entries all set a bit, or all clear it, leave that behind where there is
one. -/
theorem led_foldl_push (c : Counters) {flags : List ActiveModifierFlag} {m : ModifierFlag}
    {type : ActiveModifierFlagType}
    (h : ∀ f ∈ flags, f.ledLock = true → f.modifierFlag = m → f.type = type) :
    (flags.foldl push c).led m =
      if flags.any (fun f => f.ledLock && f.modifierFlag = m) then
        decide (type = .increaseLedLock)
      else c.led m := by
  induction flags generalizing c with
  | nil => simp
  | cons f flags ih =>
      rw [List.foldl_cons, ih _ fun g hg => h g (List.mem_cons_of_mem _ hg), List.any_cons,
        led_push]
      by_cases hf : (f.ledLock && f.modifierFlag = m) = true
      · have htype : f.type = type := by
          simp only [Bool.and_eq_true, decide_eq_true_eq] at hf
          exact h f List.mem_cons_self hf.1 hf.2
        simp only [hf, htype, Bool.true_or, if_true, ite_self]
      · simp only [hf, Bool.false_or, Bool.false_eq_true, if_false]

end Counters

namespace ModifierFlagManager

open ActiveModifierFlag

/-! ### Pushes that can be undone -/

/-- What the constructor pushes on a manager with the counters `c`: no locks, and LED entries only
to clear a bit that is set. -/
def Undoable (c : Counters) (flags : List ActiveModifierFlag) : Prop :=
  ∀ f ∈ flags, f.kind ≠ .lock ∧
    (f.ledLock = true → f.type = .decreaseLedLock ∧ c.led f.modifierFlag = true)

/-- The inverse of an entry, for a device. -/
def inverseAt (deviceId : DeviceId) (f : ActiveModifierFlag) : ActiveModifierFlag :=
  .make f.inverseType f.modifierFlag deviceId

/-- The inverse of an entry is of the same kind. -/
theorem kind_inverseAt (deviceId : DeviceId) (f : ActiveModifierFlag) :
    (inverseAt deviceId f).kind = f.kind := by
  cases htype : f.type <;>
    simp [inverseAt, make, kind, inverseType, ActiveModifierFlagType.inverse, htype]

theorem ledLock_inverseAt (deviceId : DeviceId) (f : ActiveModifierFlag) :
    (inverseAt deviceId f).ledLock = f.ledLock := by
  rw [Bool.eq_iff_iff, ← kind_eq_ledLock_iff, kind_inverseAt, kind_eq_ledLock_iff]

theorem count_inverseAt (deviceId : DeviceId) (f : ActiveModifierFlag) :
    (inverseAt deviceId f).count = -f.count := by
  cases htype : f.type <;>
    simp [inverseAt, make, count, inverseType, ActiveModifierFlagType.inverse, htype]

/-- The inverse of an entry, as the destructor pushes it. -/
def inverse (f : ActiveModifierFlag) : ActiveModifierFlag := inverseAt f.deviceId f

theorem ledLock_inverse (f : ActiveModifierFlag) : (inverse f).ledLock = f.ledLock :=
  ledLock_inverseAt f.deviceId f

theorem key_inverse (f : ActiveModifierFlag) : key (inverse f) = key f := by
  have hdevice : (inverse f).deviceId = f.deviceId := by
    show (if (inverse f).ledLock then 0 else f.deviceId) = f.deviceId
    rw [ledLock_inverse]
    split_ifs with hled
    · exact (f.led_device hled).symm
    · rfl
  have hkind : (inverse f).kind = f.kind := kind_inverseAt f.deviceId f
  simp only [key, hdevice, hkind]
  rfl

/-- Inverses take away what the entries add. -/
theorem total_map_inverse (flags : List ActiveModifierFlag) (k : Kind × ModifierFlag × DeviceId) :
    total key count (flags.map inverse) k = -total key count flags k := by
  induction flags with
  | nil => rfl
  | cons f flags ih =>
      rw [List.map_cons, total_cons, total_cons, ih, key_inverse, inverse, count_inverseAt]
      split_ifs <;> omega

/-- **Pushes that can be undone are undone by their inverses.** -/
theorem agree_inverse {s : ModifierFlagManager} {c : Counters} (h : s.Refines c)
    {flags : List ActiveModifierFlag} (hflags : Undoable c flags) :
    ((inverseActiveModifierFlags flags).foldl pushBackActiveModifierFlag
      (flags.foldl pushBackActiveModifierFlag s)).Agree s := by
  have hpushed := refines_foldl_push (refines_foldl_push h flags) (flags.map inverse)
  refine ⟨c, ⟨hpushed.reduced, fun k => (hpushed.total_eq k).trans ?_⟩, h⟩
  have hlock : ∀ f ∈ flags.map inverse, f.kind ≠ .lock := by
    intro f hf
    obtain ⟨g, hg, rfl⟩ := List.mem_map.mp hf
    have hkind : (inverse g).kind = g.kind := congrArg Prod.fst (key_inverse g)
    rw [hkind]
    exact (hflags g hg).1
  have hled : ∀ m, ((flags.map inverse).foldl Counters.push
      (flags.foldl Counters.push c)).led m = c.led m := by
    intro m
    have hclears : ∀ f ∈ flags, f.ledLock = true → f.modifierFlag = m →
        f.type = .decreaseLedLock := fun f hf hled _ => ((hflags f hf).2 hled).1
    have hsets : ∀ f ∈ flags.map inverse, f.ledLock = true → f.modifierFlag = m →
        f.type = .increaseLedLock := by
      intro f hf hled hm
      obtain ⟨g, hg, rfl⟩ := List.mem_map.mp hf
      rw [ledLock_inverse] at hled
      show g.inverseType = .increaseLedLock
      rw [inverseType, ((hflags g hg).2 hled).1]
      rfl
    rw [Counters.led_foldl_push _ hsets, Counters.led_foldl_push _ hclears, List.any_map]
    have hany : flags.any ((fun f => f.ledLock && f.modifierFlag = m) ∘ inverse) =
        flags.any fun f => f.ledLock && f.modifierFlag = m :=
      congrArg flags.any (funext fun f => by
        rw [Function.comp_apply, ledLock_inverse]
        rfl)
    rw [hany]
    by_cases hsome : flags.any (fun f => f.ledLock && f.modifierFlag = m) = true
    · obtain ⟨f, hf, hfm⟩ := List.any_eq_true.mp hsome
      simp only [Bool.and_eq_true, decide_eq_true_eq] at hfm
      obtain ⟨hled, rfl⟩ := hfm
      rw [if_pos hsome, ((hflags f hf).2 hled).2]
      rfl
    · rw [if_neg hsome, if_neg hsome]
  obtain ⟨kind', m, d⟩ := k
  by_cases hk : kind' = .ledLock
  · subst hk
    simp only [Counters.value, hled]
  · rw [Counters.value_foldl_push_of_ne_lock _ hlock hk,
      Counters.value_foldl_push_of_ne_lock _ (fun f hf => (hflags f hf).1) hk,
      total_map_inverse]
    omega

/-! ### The loops of the constructor -/

/-- The runs of the loop that increases a flag until it is pressed. -/
inductive IncreasesUntilPressed (flag : ModifierFlag) :
    ModifierFlagManager × List ActiveModifierFlag →
      ModifierFlagManager × List ActiveModifierFlag → Prop
  | pressed {m : ModifierFlagManager} {pushed : List ActiveModifierFlag}
      (h : m.isPressed flag = true) : IncreasesUntilPressed flag (m, pushed) (m, pushed)
  | increase {m : ModifierFlagManager} {pushed : List ActiveModifierFlag}
      {t : ModifierFlagManager × List ActiveModifierFlag} (h : m.isPressed flag = false)
      (next : IncreasesUntilPressed flag (m.pushBackActiveModifierFlag (.make .increase flag 0),
        pushed ++ [.make .increase flag 0]) t) : IncreasesUntilPressed flag (m, pushed) t

/-- The runs of the constructor over some modifiers. -/
inductive Constructs (modifierFlags : List ModifierFlag) : List ModifierFlag →
    ModifierFlagManager × List ActiveModifierFlag →
      ModifierFlagManager × List ActiveModifierFlag → Prop
  | nil {s : ModifierFlagManager × List ActiveModifierFlag} : Constructs modifierFlags [] s s
  | press {flag : ModifierFlag} {flags : List ModifierFlag}
      {s t u : ModifierFlagManager × List ActiveModifierFlag} (h : flag ∈ modifierFlags)
      (loop : IncreasesUntilPressed flag s t) (next : Constructs modifierFlags flags t u) :
      Constructs modifierFlags (flag :: flags) s u
  | release {flag : ModifierFlag} {flags : List ModifierFlag}
      {s u : ModifierFlagManager × List ActiveModifierFlag} (h : flag ∉ modifierFlags)
      (next : Constructs modifierFlags flags (scopeModifierFlag modifierFlags s flag) u) :
      Constructs modifierFlags (flag :: flags) s u

/-- The flags the loop pushes, each of them once more than the one before. -/
theorem increasesUntilPressed {s : ModifierFlagManager} {c : Counters} (h : s.Refines c)
    (flag : ModifierFlag) (fuel : ℕ) (enough : 1 ≤ c.sum flag + fuel)
    (pushed : List ActiveModifierFlag) :
    ∃ n, increaseUntilPressed flag fuel s pushed =
        ((List.replicate n (.make .increase flag 0)).foldl pushBackActiveModifierFlag s,
          pushed ++ List.replicate n (.make .increase flag 0)) ∧
      (increaseUntilPressed flag fuel s pushed).1.isPressed flag = true ∧
      IncreasesUntilPressed flag (s, pushed) (increaseUntilPressed flag fuel s pushed) := by
  induction fuel generalizing s c pushed with
  | zero =>
      have hpressed : s.isPressed flag = true :=
        (isPressed_iff h flag).mpr (Counters.isPressed_of_sum_pos (by omega))
      exact ⟨0, by simp [increaseUntilPressed], hpressed, .pressed hpressed⟩
  | succ fuel ih =>
      unfold increaseUntilPressed
      by_cases hpressed : s.isPressed flag = true
      · rw [if_pos hpressed]
        exact ⟨0, by simp, hpressed, .pressed hpressed⟩
      · rw [if_neg hpressed]
        have hsum : (c.push (.make .increase flag 0)).sum flag = c.sum flag + 1 := by
          rw [Counters.sum_push c (by simp [kind, make])]
          simp [make, ledLock, ActiveModifierFlagType.ledLock, count]
        obtain ⟨n, heq, hend, hloop⟩ := ih (refines_push h (.make .increase flag 0))
          (by push_cast at enough; omega) (pushed ++ [.make .increase flag 0])
        refine ⟨n + 1, ?_, hend, .increase (Bool.eq_false_iff.mpr hpressed) hloop⟩
        rw [heq, List.replicate_succ, List.foldl_cons, List.append_assoc]
        rfl

/-- The entries of a modifier outweigh its counters' sum. -/
theorem neg_length_le_sum {s : ModifierFlagManager} {c : Counters} (h : s.Refines c)
    (m : ModifierFlag) : -(s.activeModifierFlags.length : ℤ) ≤ c.sum m := by
  have hsum := countSum_notLed h m
  rw [Counters.sum, ← hsum, countSum]
  generalize (fun f : ActiveModifierFlag => decide (f.modifierFlag = m) && !f.ledLock) = p
  induction s.activeModifierFlags with
  | nil => simp
  | cons f l ih =>
      have hcount : -1 ≤ f.count := by rcases signed.weight_eq f with hf | hf <;> omega
      rw [List.length_cons]
      by_cases hp : p f = true
      · rw [List.filter_cons_of_pos hp, List.map_cons, List.sum_cons]
        push_cast
        omega
      · rw [List.filter_cons_of_neg hp]
        push_cast
        omega

/-- No locks are counted. -/
def Lockless (c : Counters) : Prop := ∀ m d, c.lock m d = 0

/-- A manager without locks stores no entry of a lock. -/
theorem Refines.kind_ne_lock {s : ModifierFlagManager} {c : Counters} (h : s.Refines c)
    (hlock : Lockless c) {f : ActiveModifierFlag} (hf : f ∈ s.activeModifierFlags) :
    f.kind ≠ .lock := by
  intro hkind
  have hzero : total key count s.activeModifierFlags (key f) = 0 := by
    rw [h.total_eq, key, hkind]
    exact hlock f.modifierFlag f.deviceId
  exact (total_eq_zero_iff signed h.reduced (key f)).mp hzero f hf rfl

/-- A modifier has an LED entry exactly when its bit is set. -/
theorem Refines.led_iff {s : ModifierFlagManager} {c : Counters} (h : s.Refines c)
    (m : ModifierFlag) :
    c.led m = true ↔ ∃ f ∈ s.activeModifierFlags, f.ledLock = true ∧ f.modifierFlag = m := by
  have hzero := total_eq_zero_iff signed h.reduced (.ledLock, m, 0)
  rw [h.total_led] at hzero
  constructor
  · intro hled
    by_contra hnone
    have : (if c.led m then (1 : ℤ) else 0) = 0 := by
      refine hzero.mpr fun f hf hkey => hnone ⟨f, hf, ?_, ?_⟩
      · exact (kind_eq_ledLock_iff f).mp (congrArg Prod.fst hkey)
      · exact congrArg (fun k => k.2.1) hkey
    rw [if_pos hled] at this
    exact one_ne_zero this
  · rintro ⟨f, hf, hled, rfl⟩
    by_contra hclear
    exact hzero.mp (if_neg hclear) f hf (key_of_ledLock hled)

/-- The inverses of stored entries can be undone. -/
theorem Refines.undoable_inverseAt {s : ModifierFlagManager} {c : Counters} (h : s.Refines c)
    (hlock : Lockless c) {flags : List ActiveModifierFlag}
    (hflags : flags ⊆ s.activeModifierFlags) :
    Undoable c (flags.map (inverseAt 0)) := by
  intro f hf
  obtain ⟨g, hg, rfl⟩ := List.mem_map.mp hf
  rw [kind_inverseAt, ledLock_inverseAt]
  refine ⟨h.kind_ne_lock hlock (hflags hg), fun hled => ⟨?_, ?_⟩⟩
  · have hne := h.type_ne_decreaseLedLock (hflags hg)
    show g.type.inverse = .decreaseLedLock
    cases htype : g.type <;>
      simp_all [ledLock, ActiveModifierFlagType.ledLock, ActiveModifierFlagType.inverse]
  · exact (h.led_iff g.modifierFlag).mpr ⟨g, hflags hg, hled, rfl⟩

/-- Pushing the inverses of all entries of a modifier releases it. -/
theorem not_isPressed_foldl_inverseAt {s : ModifierFlagManager} {c : Counters} (h : s.Refines c)
    (hlock : Lockless c) (m : ModifierFlag) :
    (((s.activeModifierFlags.filter fun f => f.modifierFlag = m).map (inverseAt 0)).foldl
      pushBackActiveModifierFlag s).isPressed m = false := by
  have hundoable := h.undoable_inverseAt hlock
    (List.filter_sublist (p := fun f => decide (f.modifierFlag = m))).subset
  rw [Bool.eq_false_iff, Ne, isPressed_iff (refines_foldl_push h _)]
  refine Counters.not_isPressed ?_ ?_
  · -- the inverses outweigh the entries
    rw [Counters.sum_foldl_push _ fun f hf => (hundoable f hf).1]
    have hfilter : ((s.activeModifierFlags.filter fun f => f.modifierFlag = m).map
        (inverseAt 0)).filter (fun f : ActiveModifierFlag => f.modifierFlag = m && !f.ledLock) =
          (s.activeModifierFlags.filter fun f => f.modifierFlag = m && !f.ledLock).map
            (inverseAt 0) := by
      rw [List.filter_map, List.filter_filter]
      refine congrArg (List.map _) (List.filter_congr fun f _ => ?_)
      rw [Function.comp_apply, ledLock_inverseAt]
      show (decide (f.modifierFlag = m) && !f.ledLock && decide (f.modifierFlag = m)) = _
      cases decide (f.modifierFlag = m) <;> simp
    have hcounts : ((s.activeModifierFlags.filter fun f =>
        f.modifierFlag = m && !f.ledLock).map (inverseAt 0)).map count =
          ((s.activeModifierFlags.filter fun f => f.modifierFlag = m && !f.ledLock).map
            count).map fun n => -n := by
      rw [List.map_map, List.map_map]
      exact List.map_congr_left fun f _ => count_inverseAt 0 f
    have hsum := countSum_notLed h m
    rw [hfilter, hcounts, ← List.sum_neg, Counters.sum, ← hsum, countSum]
    omega
  · -- the bit is cleared if it was set
    rw [Counters.led_foldl_push _ fun f hf hled _ => ((hundoable f hf).2 hled).1]
    split_ifs with hany
    · rfl
    · rw [Bool.eq_false_iff]
      intro hled
      obtain ⟨f, hf, hfled, hfm⟩ := (h.led_iff m).mp hled
      refine hany (List.any_eq_true.mpr ⟨inverseAt 0 f, ?_, ?_⟩)
      · exact List.mem_map_of_mem (List.mem_filter.mpr ⟨hf, by simpa using hfm⟩)
      · rw [ledLock_inverseAt, hfled, Bool.true_and, decide_eq_true_eq]
        exact hfm

/-! ### The scope -/

/-- What the constructor has done on the way: it pushed the flags it stores, and these can be
undone. -/
structure Scope (s : ModifierFlagManager) (c : Counters)
    (p : ModifierFlagManager × List ActiveModifierFlag) : Prop where
  pushes : p.1 = p.2.foldl pushBackActiveModifierFlag s
  undoable : Undoable c p.2

/-- In a scope the manager counts what has been pushed. -/
theorem Scope.refines {s : ModifierFlagManager} {c : Counters} (h : s.Refines c)
    {p : ModifierFlagManager × List ActiveModifierFlag} (hp : Scope s c p) :
    p.1.Refines (p.2.foldl Counters.push c) := by
  rw [hp.pushes]
  exact refines_foldl_push h p.2

/-- What can be undone brings no lock. -/
theorem Undoable.lockless {c : Counters} {flags : List ActiveModifierFlag}
    (hflags : Undoable c flags) (hlock : Lockless c) : Lockless (flags.foldl Counters.push c) := by
  intro m d
  have hvalue := Counters.value_foldl_push_of_ne_lock c (fun f hf => (hflags f hf).1)
    (k := (.lock, m, d)) (by simp)
  have hnone : total key count flags (.lock, m, d) = 0 := by
    have hempty : flags.filter (fun f => key f = (.lock, m, d)) = [] :=
      List.filter_eq_nil_iff.mpr fun f hf hkey =>
        (hflags f hf).1 (congrArg Prod.fst (of_decide_eq_true hkey))
    rw [total, hempty]
    rfl
  rw [hnone, add_zero] at hvalue
  exact hvalue.trans (hlock m d)

/-- Pushes that can be undone never set a bit. -/
theorem Undoable.led {c : Counters} {flags : List ActiveModifierFlag} (hflags : Undoable c flags)
    {m : ModifierFlag} (hled : (flags.foldl Counters.push c).led m = true) : c.led m = true := by
  rw [Counters.led_foldl_push c fun f hf hfled _ => ((hflags f hf).2 hfled).1] at hled
  split_ifs at hled
  · simp at hled
  · exact hled

/-- The body of the constructor's loop, on one modifier. -/
theorem scopeModifierFlag_eq {s : ModifierFlagManager} {c : Counters} (h : s.Refines c)
    (hlock : Lockless c) (modifierFlags : List ModifierFlag)
    (p : ModifierFlagManager × List ActiveModifierFlag) (hp : Scope s c p) (flag : ModifierFlag) :
    ∃ added, scopeModifierFlag modifierFlags p flag =
        (added.foldl pushBackActiveModifierFlag p.1, p.2 ++ added) ∧
      (∀ f ∈ added, f.modifierFlag = flag) ∧ Undoable (p.2.foldl Counters.push c) added ∧
      ((scopeModifierFlag modifierFlags p flag).1.isPressed flag = true ↔ flag ∈ modifierFlags) ∧
      (flag ∈ modifierFlags →
        IncreasesUntilPressed flag p (scopeModifierFlag modifierFlags p flag)) := by
  have hrefines := hp.refines h
  unfold scopeModifierFlag
  by_cases hmem : flag ∈ modifierFlags
  · rw [if_pos hmem]
    have hlength := neg_length_le_sum hrefines flag
    obtain ⟨n, heq, hpressed, hloop⟩ := increasesUntilPressed hrefines flag
      (p.1.activeModifierFlags.length + 1) (by push_cast; omega) p.2
    refine ⟨_, heq, fun f hf => ?_, fun f hf => ?_, iff_of_true hpressed hmem, fun _ => hloop⟩
    · rw [List.eq_of_mem_replicate hf]
      rfl
    · rw [List.eq_of_mem_replicate hf]
      simp [make, kind, ledLock, ActiveModifierFlagType.ledLock]
  · rw [if_neg hmem]
    by_cases hpressed : p.1.isPressed flag = true
    · rw [if_pos hpressed]
      have hpush : ∀ (l : List ActiveModifierFlag)
          (q : ModifierFlagManager × List ActiveModifierFlag),
          l.foldl (fun (x : ModifierFlagManager × List ActiveModifierFlag) f =>
            let inverse := ActiveModifierFlag.make f.inverseType f.modifierFlag 0
            (x.1.pushBackActiveModifierFlag inverse, x.2 ++ [inverse])) q =
          ((l.map (inverseAt 0)).foldl pushBackActiveModifierFlag q.1,
            q.2 ++ l.map (inverseAt 0)) := by
        intro l
        induction l with
        | nil => intro q; simp
        | cons f l ih =>
            intro q
            rw [List.foldl_cons, ih, List.map_cons, List.foldl_cons, List.append_assoc]
            rfl
      have hlockless := hp.undoable.lockless hlock
      refine ⟨_, hpush _ p, fun f hf => ?_,
        hrefines.undoable_inverseAt hlockless List.filter_sublist.subset,
        iff_of_false ?_ hmem, fun hflag => absurd hflag hmem⟩
      · obtain ⟨g, hg, rfl⟩ := List.mem_map.mp hf
        exact of_decide_eq_true (List.mem_filter.mp hg).2
      · have hreleased := not_isPressed_foldl_inverseAt hrefines hlockless flag
        rw [hpush]
        exact Bool.eq_false_iff.mp hreleased
    · rw [if_neg hpressed]
      exact ⟨[], by simp, by simp, by simp [Undoable], iff_of_false hpressed hmem,
        fun hflag => absurd hflag hmem⟩

theorem Undoable.append {c : Counters} {flags added : List ActiveModifierFlag}
    (hflags : Undoable c flags) (hadded : Undoable (flags.foldl Counters.push c) added) :
    Undoable c (flags ++ added) := by
  intro f hf
  rcases List.mem_append.mp hf with hf | hf
  · exact hflags f hf
  · obtain ⟨hkind, hled⟩ := hadded f hf
    exact ⟨hkind, fun hfled => ⟨(hled hfled).1, hflags.led (hled hfled).2⟩⟩

/-- The pushes for one modifier leave the others alone. -/
theorem isPressed_foldl_push_of_ne {s : ModifierFlagManager} {c : Counters} (h : s.Refines c)
    {flags : List ActiveModifierFlag} {m : ModifierFlag} (hne : ∀ f ∈ flags, f.modifierFlag ≠ m) :
    (flags.foldl pushBackActiveModifierFlag s).isPressed m = true ↔ s.isPressed m = true := by
  induction flags generalizing s c with
  | nil => rfl
  | cons f flags ih =>
      rw [List.foldl_cons, ih (refines_push h f) fun g hg => hne g (List.mem_cons_of_mem _ hg),
        isPressed_iff (refines_push h f), isPressed_iff h]
      exact Counters.isPressed_push_of_ne c (hne f List.mem_cons_self)

/-- The constructor ends, presses the wanted ones among its modifiers and no others of them, and
leaves all further ones alone. -/
theorem foldl_scopeModifierFlag {s : ModifierFlagManager} {c : Counters} (h : s.Refines c)
    (hlock : Lockless c) (modifierFlags flags : List ModifierFlag) (nodup : flags.Nodup)
    {p : ModifierFlagManager × List ActiveModifierFlag} (hp : Scope s c p) :
    let q := flags.foldl (scopeModifierFlag modifierFlags) p
    Constructs modifierFlags flags p q ∧ Scope s c q ∧
      (∀ m ∈ flags, q.1.isPressed m = true ↔ m ∈ modifierFlags) ∧
      ∀ m ∉ flags, q.1.isPressed m = true ↔ p.1.isPressed m = true := by
  induction flags generalizing p with
  | nil => exact ⟨.nil, hp, by simp, fun _ _ => Iff.rfl⟩
  | cons flag flags ih =>
      obtain ⟨hnot, nodup⟩ := List.nodup_cons.mp nodup
      obtain ⟨added, heq, hflag, hadded, hpressed, hloop⟩ :=
        scopeModifierFlag_eq h hlock modifierFlags p hp flag
      have hp' : Scope s c (scopeModifierFlag modifierFlags p flag) := by
        rw [heq]
        refine ⟨?_, hp.undoable.append hadded⟩
        rw [hp.pushes, List.foldl_append]
      obtain ⟨hrun, hq, hin, hout⟩ := ih nodup hp'
      rw [List.foldl_cons]
      refine ⟨?_, hq, fun m hm => ?_, fun m hm => ?_⟩
      · by_cases hmem : flag ∈ modifierFlags
        · exact .press hmem (hloop hmem) hrun
        · exact .release hmem hrun
      · rcases List.mem_cons.mp hm with rfl | hm
        · exact (hout m hnot).trans hpressed
        · exact hin m hm
      · have hne : ∀ f ∈ added, f.modifierFlag ≠ m := fun f hf hfm =>
          hm (List.mem_cons.mpr (Or.inl (hfm.symm.trans (hflag f hf))))
        rw [hout m fun hmem => hm (List.mem_cons_of_mem _ hmem), heq]
        exact isPressed_foldl_push_of_ne (hp.refines h) hne

/-- No lock is counted along a run without lock pushes. -/
theorem lockless_run (ops : List Operation)
    (hops : ∀ flag, Operation.pushBackActiveModifierFlag flag ∈ ops → flag.kind ≠ .lock) :
    Lockless (Machine.run Counters.step Counters.empty ops) := by
  have hguard : Machine.Steps Counters.step (fun _ op => ∀ flag,
      op = Operation.pushBackActiveModifierFlag flag → flag.kind ≠ .lock) Counters.empty ops := by
    refine (Machine.steps_iff_forall _ _ _ _).mpr ?_
    rintro before op after rfl flag rfl
    exact hops flag (by simp)
  refine Machine.steps_invariant (fun c op hop hc => ?_) (fun _ _ => rfl) hguard
  cases op with
  | pushBackActiveModifierFlag flag =>
      intro m d
      have hkind := hop flag rfl
      have hundo : ∀ k, k.1 ≠ .ledLock → ([flag].foldl Counters.push c).value k =
          c.value k + total key count [flag] k := fun k hk =>
        Counters.value_foldl_push_of_ne_lock c (by simpa using hkind) hk
      have hvalue := hundo (.lock, m, d) (by simp)
      have hkey : key flag ≠ (.lock, m, d) := fun hkey => hkind (congrArg Prod.fst hkey)
      rw [total_cons, total_nil, if_neg hkey] at hvalue
      exact hvalue.trans (by simpa [Counters.value] using hc m d)
  | eraseAllActiveModifierFlags d =>
      intro m d'
      show ((c.lock m).erase d) d' = 0
      rw [Finsupp.erase_apply, hc m d', ite_self]
  | eraseAllActiveModifierFlagsExceptLockAndSticky d => exact hc
  | eraseCapsLockStickyModifierFlags => exact hc
  | eraseAllStickyModifierFlags => exact hc
  | reset => exact fun _ _ => rfl

/-- **`scoped_modifier_flags` sets and restores exactly.**  After any calls on a new manager that
push no locks, the constructor ends, a modifier is pressed in the scope exactly when it is wanted,
and the destructor brings the entries back that were there before, up to their order. -/
theorem run_scopedModifierFlags (ops : List Operation)
    (hops : ∀ flag, Operation.pushBackActiveModifierFlag flag ∈ ops →
      flag.type ≠ .increaseLock ∧ flag.type ≠ .decreaseLock)
    (modifierFlags : List ModifierFlag) :
    let s := Machine.run step {} ops
    let opened := s.scopedModifierFlags modifierFlags
    Constructs modifierFlags allModifierFlags (s, []) opened ∧
      (∀ m ∈ allModifierFlags, opened.1.isPressed m = true ↔ m ∈ modifierFlags) ∧
      ((inverseActiveModifierFlags opened.2).foldl pushBackActiveModifierFlag
        opened.1).activeModifierFlags.Perm s.activeModifierFlags := by
  intro s opened
  have h : s.Refines (Machine.run Counters.step Counters.empty ops) := run_refines ops
  have hlock : Lockless (Machine.run Counters.step Counters.empty ops) := by
    refine lockless_run ops fun flag hflag => ?_
    obtain ⟨hincrease, hdecrease⟩ := hops flag hflag
    cases htype : flag.type <;> simp_all [kind]
  obtain ⟨hrun, hscope, hpressed, -⟩ := foldl_scopeModifierFlag h hlock modifierFlags
    allModifierFlags (by decide) (p := (s, [])) ⟨rfl, by simp [Undoable]⟩
  refine ⟨hrun, hpressed, ?_⟩
  have hrestored := (agree_inverse h hscope.undoable).perm
  rw [← hscope.pushes] at hrestored
  exact hrestored

/-- A caps lock LED, a sticky shift and a control held by another device: the scope wants shift
and command. -/
theorem run_scopedModifierFlags_shift_command :
    let s := Machine.run step {}
      [.pushBackActiveModifierFlag (.make .increaseLedLock .capsLock 0),
        .pushBackActiveModifierFlag (.make .increaseSticky .leftShift 0),
        .pushBackActiveModifierFlag (.make .increase .leftControl 1)]
    let opened := s.scopedModifierFlags [.leftShift, .leftCommand]
    opened.2 = [.make .decreaseLedLock .capsLock 0, .make .decrease .leftControl 0,
        .make .increase .leftCommand 0] ∧
      ((inverseActiveModifierFlags opened.2).foldl pushBackActiveModifierFlag
        opened.1).activeModifierFlags.Perm s.activeModifierFlags :=
  ⟨by decide, (run_scopedModifierFlags
    [.pushBackActiveModifierFlag (.make .increaseLedLock .capsLock 0),
      .pushBackActiveModifierFlag (.make .increaseSticky .leftShift 0),
      .pushBackActiveModifierFlag (.make .increase .leftControl 1)]
    (by simp [ActiveModifierFlag.make]) [.leftShift, .leftCommand]).2.2⟩

end ModifierFlagManager

end Karabiner
