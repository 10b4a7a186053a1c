import Mathlib.Algebra.Ring.Int.Defs
import Mathlib.Data.Int.Notation
import Mathlib.Data.Nat.Notation

/-!
# Basic types

The plain data of `share/types`: devices, HID usages, momentary switch events, modifier flags,
event kinds and the clock units.

A `device_id`, a usage page and a usage are fixed-width integers in the source.  The code only
compares them (and, for usages, tests a range), so they are unbounded here.  Time points and
durations are `mach_absolute_time` units; the code adds and compares them, and they are unbounded
integers here too.  A sum that `AbsoluteTime.Fits` does not wrap in the source.
-/

namespace Karabiner

/-- `device_id`, the IOKit registry entry id of a device.  Device `0` stands for no device. -/
abbrev DeviceId := ℕ

/-- `absolute_time_point` and `absolute_time_duration`, in `mach_absolute_time` units. -/
abbrev AbsoluteTime := ℤ

/-- A time point that 64 bits hold. -/
def AbsoluteTime.Fits (t : AbsoluteTime) : Prop := 0 ≤ t ∧ t < 2 ^ 64

/-- `mach_timebase_info_data_t`: one `mach_absolute_time` unit is `numer / denom` nanoseconds.
The operating system fixes it at boot. -/
class MachTimebase where
  numer : ℕ
  denom : ℕ

/-- `pqrs::osx::chrono::make_absolute_time_duration`, from milliseconds. -/
def makeAbsoluteTimeDuration [MachTimebase] (milliseconds : ℤ) : AbsoluteTime :=
  let nanoseconds := milliseconds * 1000000
  if MachTimebase.numer ≠ MachTimebase.denom ∧ MachTimebase.numer ≠ 0 then
    (nanoseconds * MachTimebase.denom).tdiv MachTimebase.numer
  else nanoseconds

theorem makeAbsoluteTimeDuration_nonneg [MachTimebase] {milliseconds : ℤ}
    (h : 0 ≤ milliseconds) : 0 ≤ makeAbsoluteTimeDuration milliseconds := by
  have hnanoseconds : 0 ≤ milliseconds * 1000000 := Int.mul_nonneg h (by decide)
  unfold makeAbsoluteTimeDuration
  dsimp only
  split
  · exact Int.tdiv_nonneg (Int.mul_nonneg hnanoseconds (Int.natCast_nonneg _))
      (Int.natCast_nonneg _)
  · exact hnanoseconds

/-- `pqrs::osx::chrono::make_milliseconds`. -/
def makeMilliseconds [MachTimebase] (time : AbsoluteTime) : ℤ :=
  let nanoseconds :=
    if MachTimebase.numer ≠ MachTimebase.denom ∧ MachTimebase.denom ≠ 0 then
      (time * MachTimebase.numer).tdiv MachTimebase.denom
    else time
  nanoseconds.tdiv 1000000

/-- `event_type`. -/
inductive EventType
  | keyDown
  | keyUp
  | single
deriving DecidableEq, Repr

/-- `validity`. -/
inductive Validity
  | invalid
  | valid
deriving DecidableEq, Repr

/-! ### HID usages -/

namespace UsagePage

def undefined : ℤ := 0x00
def genericDesktop : ℤ := 0x01
def keyboardOrKeypad : ℤ := 0x07
def leds : ℤ := 0x08
def button : ℤ := 0x09
def consumer : ℤ := 0x0c
def appleVendorKeyboard : ℤ := 0xff01
def appleVendorTopCase : ℤ := 0x00ff

end UsagePage

namespace Usage

def undefined : ℤ := 0x00

namespace GenericDesktop

def x : ℤ := 0x30
def y : ℤ := 0x31
def z : ℤ := 0x32
def rz : ℤ := 0x35
def wheel : ℤ := 0x38
def hatSwitch : ℤ := 0x39
def dpadUp : ℤ := 0x90
def dpadDown : ℤ := 0x91
def dpadRight : ℤ := 0x92
def dpadLeft : ℤ := 0x93

end GenericDesktop

namespace KeyboardOrKeypad

def keyboardA : ℤ := 0x04
def keyboardCapsLock : ℤ := 0x39
def keyboardLeftControl : ℤ := 0xe0
def keyboardLeftShift : ℤ := 0xe1
def keyboardLeftAlt : ℤ := 0xe2
def keyboardLeftGui : ℤ := 0xe3
def keyboardRightControl : ℤ := 0xe4
def keyboardRightShift : ℤ := 0xe5
def keyboardRightAlt : ℤ := 0xe6
def keyboardRightGui : ℤ := 0xe7
def reserved : ℤ := 0xffff

end KeyboardOrKeypad

namespace Led

def capsLock : ℤ := 0x02

end Led

namespace Consumer

def acPan : ℤ := 0x0238

end Consumer

namespace AppleVendorKeyboard

def function : ℤ := 0x0003

end AppleVendorKeyboard

namespace AppleVendorTopCase

def keyboardFn : ℤ := 0x0003

end AppleVendorTopCase

end Usage

/-- `pqrs::hid::usage_pair`. -/
structure UsagePair where
  usagePage : ℤ
  usage : ℤ
deriving DecidableEq, Repr

/-! ### Modifier flags -/

/-- `modifier_flag`, its bounds `zero` and `end_` included. -/
inductive ModifierFlag
  | zero
  | capsLock
  | leftControl
  | leftShift
  | leftOption
  | leftCommand
  | rightControl
  | rightShift
  | rightOption
  | rightCommand
  | fn
  | end_
deriving DecidableEq, Repr

/-- `sticky_modifier_type`. -/
inductive StickyModifierType
  | on
  | off
  | toggle
deriving DecidableEq, Repr

/-- `hid_report::modifier`: the eight modifier bits of a keyboard report. -/
inductive HidReportModifier
  | leftControl
  | leftShift
  | leftOption
  | leftCommand
  | rightControl
  | rightShift
  | rightOption
  | rightCommand
deriving DecidableEq, Repr

/-- `make_hid_report_modifier`. -/
def makeHidReportModifier : ModifierFlag → Option HidReportModifier
  | .leftControl => some .leftControl
  | .leftShift => some .leftShift
  | .leftOption => some .leftOption
  | .leftCommand => some .leftCommand
  | .rightControl => some .rightControl
  | .rightShift => some .rightShift
  | .rightOption => some .rightOption
  | .rightCommand => some .rightCommand
  | _ => none

/-! ### Momentary switch events -/

/-- `momentary_switch_event`: keys, consumer keys, pointing buttons and the d-pad. -/
structure MomentarySwitchEvent where
  usagePair : UsagePair
deriving DecidableEq, Repr

namespace MomentarySwitchEvent

/-- The default constructor. -/
def undefined : MomentarySwitchEvent := ⟨⟨UsagePage.undefined, Usage.undefined⟩⟩

/-- The constructor from a `modifier_flag`. -/
def ofModifierFlag : ModifierFlag → MomentarySwitchEvent
  | .zero => undefined
  | .capsLock => ⟨⟨UsagePage.keyboardOrKeypad, Usage.KeyboardOrKeypad.keyboardCapsLock⟩⟩
  | .leftControl => ⟨⟨UsagePage.keyboardOrKeypad, Usage.KeyboardOrKeypad.keyboardLeftControl⟩⟩
  | .leftShift => ⟨⟨UsagePage.keyboardOrKeypad, Usage.KeyboardOrKeypad.keyboardLeftShift⟩⟩
  | .leftOption => ⟨⟨UsagePage.keyboardOrKeypad, Usage.KeyboardOrKeypad.keyboardLeftAlt⟩⟩
  | .leftCommand => ⟨⟨UsagePage.keyboardOrKeypad, Usage.KeyboardOrKeypad.keyboardLeftGui⟩⟩
  | .rightControl => ⟨⟨UsagePage.keyboardOrKeypad, Usage.KeyboardOrKeypad.keyboardRightControl⟩⟩
  | .rightShift => ⟨⟨UsagePage.keyboardOrKeypad, Usage.KeyboardOrKeypad.keyboardRightShift⟩⟩
  | .rightOption => ⟨⟨UsagePage.keyboardOrKeypad, Usage.KeyboardOrKeypad.keyboardRightAlt⟩⟩
  | .rightCommand => ⟨⟨UsagePage.keyboardOrKeypad, Usage.KeyboardOrKeypad.keyboardRightGui⟩⟩
  | .fn => ⟨⟨UsagePage.appleVendorTopCase, Usage.AppleVendorTopCase.keyboardFn⟩⟩
  | .end_ => undefined

/-- `make_modifier_flag`.  `caps_lock` is not a modifier here: it is posted as a sticky modifier. -/
def makeModifierFlag (e : MomentarySwitchEvent) : Option ModifierFlag :=
  let usagePage := e.usagePair.usagePage
  let usage := e.usagePair.usage
  if usagePage = UsagePage.keyboardOrKeypad then
    if usage = Usage.KeyboardOrKeypad.keyboardLeftControl then some .leftControl
    else if usage = Usage.KeyboardOrKeypad.keyboardLeftShift then some .leftShift
    else if usage = Usage.KeyboardOrKeypad.keyboardLeftAlt then some .leftOption
    else if usage = Usage.KeyboardOrKeypad.keyboardLeftGui then some .leftCommand
    else if usage = Usage.KeyboardOrKeypad.keyboardRightControl then some .rightControl
    else if usage = Usage.KeyboardOrKeypad.keyboardRightShift then some .rightShift
    else if usage = Usage.KeyboardOrKeypad.keyboardRightAlt then some .rightOption
    else if usage = Usage.KeyboardOrKeypad.keyboardRightGui then some .rightCommand
    else none
  else if usagePage = UsagePage.appleVendorKeyboard then
    if usage = Usage.AppleVendorKeyboard.function then some .fn else none
  else if usagePage = UsagePage.appleVendorTopCase then
    if usage = Usage.AppleVendorTopCase.keyboardFn then some .fn else none
  else none

/-- `valid`. -/
def valid (e : MomentarySwitchEvent) : Bool :=
  e.usagePair.usagePage ≠ UsagePage.undefined && e.usagePair.usage ≠ Usage.undefined

/-- `modifier_flag`: whether the event is a modifier key. -/
def modifierFlag (e : MomentarySwitchEvent) : Bool := e.makeModifierFlag.isSome

/-- `caps_lock`. -/
def capsLock (e : MomentarySwitchEvent) : Bool :=
  e.usagePair.usagePage = UsagePage.keyboardOrKeypad &&
    e.usagePair.usage = Usage.KeyboardOrKeypad.keyboardCapsLock

/-- `pointing_button`. -/
def pointingButton (e : MomentarySwitchEvent) : Bool := e.usagePair.usagePage = UsagePage.button

end MomentarySwitchEvent

end Karabiner
