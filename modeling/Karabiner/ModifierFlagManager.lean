import Karabiner.Types
import Karabiner.Library.SignedTokens

/-!
# The modifier flag manager

`share/modifier_flag_manager.hpp`: the list of active modifier flags of an event queue.  Every
modifier key_down and key_up, every (sticky) lock and the LED state of the virtual keyboard push
an entry, and a modifier is pressed when its entries sum to more than zero.

The manager keeps the list short by removing a pushed entry together with an entry it is paired
with.  `erase_pairs` searches the whole list for pairs, deleting while it iterates; what it
comes to on the lists the manager really has is `erasePairs_concat`.
-/

namespace Karabiner

open SignedTokens

/-! ### Active modifier flags -/

/-- `active_modifier_flag::type`. -/
inductive ActiveModifierFlagType
  | increase
  | decrease
  | increaseLock
  | decreaseLock
  | increaseLedLock
  | decreaseLedLock
  | increaseSticky
  | decreaseSticky
deriving DecidableEq, Repr

namespace ActiveModifierFlagType

/-- `get_inverse_type`. -/
def inverse : ActiveModifierFlagType → ActiveModifierFlagType
  | increase => decrease
  | decrease => increase
  | increaseLock => decreaseLock
  | decreaseLock => increaseLock
  | increaseLedLock => decreaseLedLock
  | decreaseLedLock => increaseLedLock
  | increaseSticky => decreaseSticky
  | decreaseSticky => increaseSticky

/-- `led_lock`. -/
def ledLock : ActiveModifierFlagType → Bool
  | increaseLedLock | decreaseLedLock => true
  | _ => false

end ActiveModifierFlagType

/-- `active_modifier_flag`.  An LED entry is shared by all devices: it has device `0`. -/
structure ActiveModifierFlag where
  type : ActiveModifierFlagType
  modifierFlag : ModifierFlag
  deviceId : DeviceId
  led_device : type.ledLock = true → deviceId = 0
deriving DecidableEq, Repr

namespace ActiveModifierFlag

/-- The constructor, which moves an LED entry to device `0`. -/
def make (type : ActiveModifierFlagType) (modifierFlag : ModifierFlag) (deviceId : DeviceId) :
    ActiveModifierFlag where
  type := type
  modifierFlag := modifierFlag
  deviceId := if type.ledLock then 0 else deviceId
  led_device h := by rw [if_pos h]

/-- `get_inverse_type`. -/
def inverseType (f : ActiveModifierFlag) : ActiveModifierFlagType := f.type.inverse

/-- `get_count`. -/
def count (f : ActiveModifierFlag) : ℤ :=
  match f.type with
  | .increase | .increaseLock | .increaseLedLock | .increaseSticky => 1
  | .decrease | .decreaseLock | .decreaseLedLock | .decreaseSticky => -1

/-- `any_lock`. -/
def anyLock (f : ActiveModifierFlag) : Bool :=
  match f.type with
  | .increaseLock | .decreaseLock | .increaseLedLock | .decreaseLedLock => true
  | .increase | .decrease | .increaseSticky | .decreaseSticky => false

/-- `led_lock`. -/
def ledLock (f : ActiveModifierFlag) : Bool := f.type.ledLock

/-- `sticky`. -/
def sticky (f : ActiveModifierFlag) : Bool :=
  match f.type with
  | .increaseSticky | .decreaseSticky => true
  | .increase | .decrease | .increaseLock | .decreaseLock | .increaseLedLock
  | .decreaseLedLock => false

/-- `is_paired`. -/
def isPaired (f other : ActiveModifierFlag) : Bool :=
  f.type = other.inverseType && f.modifierFlag = other.modifierFlag &&
    f.deviceId = other.deviceId

/-! ### Entries as signed tokens -/

/-- The four kinds of entries, each with an increasing and a decreasing type. -/
inductive Kind
  | plain
  | lock
  | ledLock
  | sticky
deriving DecidableEq, Repr

/-- The kind of an entry's type. -/
def kind (f : ActiveModifierFlag) : Kind :=
  match f.type with
  | .increase | .decrease => .plain
  | .increaseLock | .decreaseLock => .lock
  | .increaseLedLock | .decreaseLedLock => .ledLock
  | .increaseSticky | .decreaseSticky => .sticky

/-- What an entry counts for: paired entries agree in it. -/
def key (f : ActiveModifierFlag) : Kind × ModifierFlag × DeviceId :=
  (f.kind, f.modifierFlag, f.deviceId)

theorem signed : Signed key count where
  weight_eq f := by
    cases h : f.type <;> simp [count, h]
  ext {f g} hkey hcount := by
    obtain ⟨tf, mf, df, hf⟩ := f
    obtain ⟨tg, mg, dg, hg⟩ := g
    simp only [key, Prod.mk.injEq] at hkey
    obtain ⟨hkind, rfl, rfl⟩ := hkey
    have htype : tf = tg := by
      cases tf <;> cases tg <;> simp_all [kind, count]
    subst htype
    rfl

/-- `is_paired` says that two entries count for the same thing and cancel each other. -/
theorem isPaired_iff (f g : ActiveModifierFlag) :
    f.isPaired g = true ↔ SignedTokens.Opposite key count f g := by
  obtain ⟨tf, mf, df, hf⟩ := f
  obtain ⟨tg, mg, dg, hg⟩ := g
  cases tf <;> cases tg <;>
    simp [isPaired, inverseType, ActiveModifierFlagType.inverse, SignedTokens.Opposite, key, kind,
      count]

theorem kind_eq_ledLock_iff (f : ActiveModifierFlag) : f.kind = .ledLock ↔ f.ledLock = true := by
  cases h : f.type <;> simp [kind, ledLock, ActiveModifierFlagType.ledLock, h]

end ActiveModifierFlag

/-! ### The manager -/

/-- `modifier_flag_manager`. -/
structure ModifierFlagManager where
  activeModifierFlags : List ActiveModifierFlag := []
deriving DecidableEq, Repr

namespace ModifierFlagManager

/-- The loops of `erase_pairs` from the index `i1` on.  The inner loop finds the first `i2` after
`i1` whose entry is paired with that of `i1`; both are erased and `i1` steps back, unless it is
at the start, before the outer loop increments it. -/
def erasePairsFrom : ℕ → List ActiveModifierFlag → ℕ → List ActiveModifierFlag
  | 0, flags, _ => flags
  | fuel + 1, flags, i1 =>
    match flags[i1]? with
    | none => flags
    | some f =>
      match (flags.drop (i1 + 1)).findIdx? (f.isPaired ·) with
      | none => erasePairsFrom fuel flags (i1 + 1)
      | some k =>
        erasePairsFrom fuel ((flags.eraseIdx (i1 + 1 + k)).eraseIdx i1)
          ((if i1 > 0 then i1 - 1 else i1) + 1)

/-- `erase_pairs`.  Each round brings `i1` closer to the end, so the length is enough fuel
(`erasePairsFrom_fuel`). -/
def erasePairs (flags : List ActiveModifierFlag) : List ActiveModifierFlag :=
  erasePairsFrom flags.length flags 0

/-- `push_back_active_modifier_flag`. -/
def pushBackActiveModifierFlag (m : ModifierFlagManager) (flag : ActiveModifierFlag) :
    ModifierFlagManager :=
  match flag.type with
  | .increase | .decrease | .increaseSticky | .decreaseSticky =>
    ⟨erasePairs (m.activeModifierFlags ++ [flag])⟩
  | .increaseLock | .decreaseLock | .increaseLedLock =>
    -- Remove same type entries.
    ⟨erasePairs (m.activeModifierFlags.filter (fun f => f ≠ flag) ++ [flag])⟩
  | .decreaseLedLock =>
    -- Remove all `increase_led_lock`.
    ⟨m.activeModifierFlags.filter fun f => !f.isPaired flag⟩

/-- The five `erase_…` functions: keep the entries that do not satisfy `p`. -/
def eraseIf (m : ModifierFlagManager) (p : ActiveModifierFlag → Bool) : ModifierFlagManager :=
  ⟨m.activeModifierFlags.filter fun f => !p f⟩

/-- `erase_all_active_modifier_flags`. -/
def eraseAllActiveModifierFlags (m : ModifierFlagManager) (deviceId : DeviceId) :
    ModifierFlagManager :=
  m.eraseIf fun f => f.deviceId = deviceId

/-- `erase_all_active_modifier_flags_except_lock_and_sticky`. -/
def eraseAllActiveModifierFlagsExceptLockAndSticky (m : ModifierFlagManager)
    (deviceId : DeviceId) : ModifierFlagManager :=
  m.eraseIf fun f => f.deviceId = deviceId && !f.anyLock && !f.sticky

/-- `erase_caps_lock_sticky_modifier_flags`. -/
def eraseCapsLockStickyModifierFlags (m : ModifierFlagManager) : ModifierFlagManager :=
  m.eraseIf fun f => f.modifierFlag = .capsLock && f.sticky

/-- `erase_all_sticky_modifier_flags`. -/
def eraseAllStickyModifierFlags (m : ModifierFlagManager) : ModifierFlagManager :=
  m.eraseIf fun f => f.sticky

/-- `reset`. -/
def reset (_ : ModifierFlagManager) : ModifierFlagManager := ⟨[]⟩

/-- The sum of `get_count` over the entries that satisfy `p`. -/
def countSum (m : ModifierFlagManager) (p : ActiveModifierFlag → Bool) : ℤ :=
  ((m.activeModifierFlags.filter p).map ActiveModifierFlag.count).sum

/-- `is_pressed`. -/
def isPressed (m : ModifierFlagManager) (modifierFlag : ModifierFlag) : Bool :=
  let others := fun f : ActiveModifierFlag => f.modifierFlag = modifierFlag && !f.ledLock
  if m.activeModifierFlags.countP others = 0 then
    -- Use led lock if other flags do not exist.
    m.countSum (fun f => f.modifierFlag = modifierFlag && f.ledLock) > 0
  else
    -- Ignore led lock if other flags exist.
    m.countSum others > 0

/-- `sticky_size`. -/
def stickySize (m : ModifierFlagManager) (modifierFlag : ModifierFlag) : ℕ :=
  m.activeModifierFlags.countP fun f => f.modifierFlag = modifierFlag && f.sticky

/-- `is_sticky_active`. -/
def isStickyActive (m : ModifierFlagManager) (modifierFlag : ModifierFlag) : Bool :=
  m.countSum (fun f => f.modifierFlag = modifierFlag && f.sticky) > 0

/-- The eight modifiers of a keyboard report, in the order of `make_hid_report_modifiers`. -/
def reportedModifierFlags : List ModifierFlag :=
  [.leftControl, .leftShift, .leftOption, .leftCommand, .rightControl, .rightShift, .rightOption,
    .rightCommand]

/-- `make_hid_report_modifiers`, the modifiers it inserts in their order. -/
def makeHidReportModifiers (m : ModifierFlagManager) : List HidReportModifier :=
  (reportedModifierFlags.filter m.isPressed).filterMap makeHidReportModifier

/-- The ten modifiers of `make_modifier_flags` and of `scoped_modifier_flags`, in their order. -/
def allModifierFlags : List ModifierFlag :=
  .capsLock :: reportedModifierFlags ++ [.fn]

/-- `make_modifier_flags`, in the order of insertion. -/
def makeModifierFlags (m : ModifierFlagManager) : List ModifierFlag :=
  allModifierFlags.filter m.isPressed

/-! ### What the loops of `erase_pairs` come to -/

open ActiveModifierFlag

/-- The loops stop at the end of the list for any amount of fuel that covers the rest of it. -/
theorem erasePairsFrom_fuel (fuel : ℕ) (flags : List ActiveModifierFlag) (i1 : ℕ)
    (enough : flags.length ≤ fuel + i1) (more : ℕ) :
    erasePairsFrom (fuel + more) flags i1 = erasePairsFrom fuel flags i1 := by
  induction fuel generalizing flags i1 with
  | zero =>
      cases more with
      | zero => rfl
      | succ more =>
          have hnone : flags[i1]? = none := by simp; omega
          simp [erasePairsFrom, hnone]
  | succ fuel ih =>
      rw [Nat.add_right_comm]
      simp only [erasePairsFrom]
      cases hf : flags[i1]? with
      | none => rfl
      | some f =>
          have hi1 : i1 < flags.length := (List.getElem?_eq_some_iff.mp hf).1
          dsimp only
          cases hk : (flags.drop (i1 + 1)).findIdx? (f.isPaired ·) with
          | none => exact ih flags (i1 + 1) (by omega)
          | some k =>
              have hlt : k < (flags.drop (i1 + 1)).length :=
                (List.findIdx?_eq_some_iff_findIdx_eq.mp hk).1
              rw [List.length_drop] at hlt
              refine ih _ _ ?_
              rw [List.length_eraseIdx_of_lt
                (by rw [List.length_eraseIdx_of_lt (by omega)]; omega),
                List.length_eraseIdx_of_lt (by omega)]
              split_ifs <;> omega

/-- Nothing is erased from a list without pairs. -/
theorem erasePairsFrom_of_reduced (fuel : ℕ) {flags : List ActiveModifierFlag}
    (h : Reduced key count flags) (i1 : ℕ) : erasePairsFrom fuel flags i1 = flags := by
  induction fuel generalizing i1 with
  | zero => rfl
  | succ fuel ih =>
      simp only [erasePairsFrom]
      cases hf : flags[i1]? with
      | none => rfl
      | some f =>
          have hnone : (flags.drop (i1 + 1)).findIdx? (f.isPaired ·) = none := by
            rw [List.findIdx?_eq_none_iff]
            intro g hg
            rw [Bool.eq_false_iff, Ne, isPaired_iff]
            exact h.not_opposite signed (List.mem_of_getElem? hf) (List.mem_of_mem_drop hg)
          simp only [hnone]
          exact ih (i1 + 1)

/-- The loops walk over a prefix `a` whose entries pair with nothing, find `y` at its end paired
with the last entry `x`, erase both and walk over the rest. -/
theorem erasePairsFrom_of_pair {a b : List ActiveModifierFlag} {y x : ActiveModifierFlag}
    (h : Reduced key count (a ++ y :: b)) (hyx : SignedTokens.Opposite key count y x)
    (ha : ∀ z ∈ a, ¬ SignedTokens.Opposite key count z x) (fuel i1 : ℕ) (hi1 : i1 ≤ a.length)
    (enough : a.length < fuel + i1) :
    erasePairsFrom fuel (a ++ y :: b ++ [x]) i1 = a ++ b := by
  induction fuel generalizing i1 with
  | zero => omega
  | succ fuel ih =>
      have hab : Reduced key count (a ++ b) :=
        h.sublist ((List.sublist_cons_self y b).append_left a)
      rcases Nat.lt_or_eq_of_le hi1 with hlt | rfl
      · -- before `y`: the entry pairs neither with the list nor with `x`
        have hf : (a ++ y :: b ++ [x])[i1]? = some a[i1] := by
          rw [List.append_assoc, List.getElem?_append_left hlt, List.getElem?_eq_getElem hlt]
        have hmem : a[i1] ∈ a := List.getElem_mem hlt
        have hnone : ((a ++ y :: b ++ [x]).drop (i1 + 1)).findIdx? (a[i1].isPaired ·) = none := by
          rw [List.findIdx?_eq_none_iff]
          intro g hg
          rw [Bool.eq_false_iff, Ne, isPaired_iff]
          rcases List.mem_append.mp (List.mem_of_mem_drop hg) with hg | hg
          · exact h.not_opposite signed (List.mem_append_left _ hmem) hg
          · rw [List.mem_singleton.mp hg]
            exact ha _ hmem
        simp only [erasePairsFrom, hf, hnone]
        exact ih (i1 + 1) hlt (by omega)
      · -- at `y`: its partner is the last entry
        have hf : (a ++ y :: b ++ [x])[a.length]? = some y := by simp
        have hdrop : (a ++ y :: b ++ [x]).drop (a.length + 1) = b ++ [x] := by
          rw [List.append_assoc, ← List.drop_drop, List.drop_left]
          rfl
        have hidx : (b ++ [x]).findIdx? (y.isPaired ·) = some b.length := by
          have hb : b.findIdx? (y.isPaired ·) = none := by
            rw [List.findIdx?_eq_none_iff]
            intro g hg
            rw [Bool.eq_false_iff, Ne, isPaired_iff]
            exact h.not_opposite signed (by simp) (by simp [hg])
          rw [List.findIdx?_append, hb]
          simp [(isPaired_iff y x).mpr hyx]
        have herase : ((a ++ y :: b ++ [x]).eraseIdx (a.length + 1 + b.length)).eraseIdx a.length
            = a ++ b := by
          have hlast : a.length + 1 + b.length = (a ++ y :: b).length := by simp; omega
          rw [hlast, List.eraseIdx_append_of_length_le (le_refl _), Nat.sub_self,
            List.eraseIdx_cons_zero, List.append_nil,
            List.eraseIdx_append_of_length_le (le_refl _), Nat.sub_self, List.eraseIdx_cons_zero]
        simp only [erasePairsFrom, hf, hdrop, hidx, herase]
        exact erasePairsFrom_of_reduced fuel hab _

/-- **`erase_pairs` after a push cancels the pushed entry** with the first entry it is paired
with, if there is one, and changes nothing else. -/
theorem erasePairs_concat {flags : List ActiveModifierFlag} (h : Reduced key count flags)
    (x : ActiveModifierFlag) : erasePairs (flags ++ [x]) = cancel key count flags x := by
  rcases @cancel_cases _ _ _ key count flags x with
    ⟨y, a, b, rfl, hyx, ha, heq⟩ | ⟨hnone, heq⟩
  · rw [heq, erasePairs]
    exact erasePairsFrom_of_pair h hyx ha _ 0 (Nat.zero_le _) (by simp)
  · have hred : Reduced key count (flags ++ [x]) := by
      rw [← heq]
      exact h.cancel x
    rw [heq, erasePairs, erasePairsFrom_of_reduced _ hred]

end ModifierFlagManager

end Karabiner
