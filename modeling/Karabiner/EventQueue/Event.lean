import Karabiner.Types
import Mathlib.Data.Rat.Defs

/-!
# Events and event queue entries

`share/event_queue/event.hpp` and `entry.hpp`.  An `event` of the source is a type tag next to a
variant value; every constructor of the source pairs a tag with the value that belongs to it, so
here it is one inductive type with the value as the constructor's argument.

A floating-point number of a payload is a rational here: no modelled function computes with it.
-/

namespace Karabiner

/-! ### Payloads -/

/-- `pointing_motion`. -/
structure PointingMotion where
  x : ℤ
  y : ℤ
  verticalWheel : ℤ
  horizontalWheel : ℤ
deriving DecidableEq, Repr

/-- `mouse_key`. -/
structure MouseKey where
  x : ℤ := 0
  y : ℤ := 0
  verticalWheel : ℤ := 0
  horizontalWheel : ℤ := 0
  speedMultiplier : ℚ := 1
deriving DecidableEq, Repr

/-- `is_zero`, which does not look at the speed multiplier. -/
def MouseKey.isZero (m : MouseKey) : Bool :=
  m.x = 0 && m.y = 0 && m.verticalWheel = 0 && m.horizontalWheel = 0

/-- `is_speed_multiplier`. -/
def MouseKey.isSpeedMultiplier (m : MouseKey) : Bool := m.isZero

/-- `notification_message`. -/
structure NotificationMessage where
  id : String
  text : String
deriving DecidableEq, Repr

/-- `input_source_selector::specifier`. -/
structure InputSourceSpecifier where
  language : Option String := none
  inputSourceId : Option String := none
  inputModeId : Option String := none
deriving DecidableEq, Repr

/-- The `position_value` of `set_mouse_cursor_position`: points or a percentage. -/
inductive PositionValue
  | point (value : ℤ)
  | percent (value : ℤ)
deriving DecidableEq, Repr

/-- `software_function`. -/
inductive SoftwareFunction
  | none
  | cgEventDoubleClick (button : ℕ)
  | iokitPowerManagementSleepSystem (delayMilliseconds : ℤ)
  | openApplication (bundleIdentifier filePath : Option String)
      (frontmostApplicationHistoryIndex : Option ℕ)
  | setMouseCursorPosition (x y : PositionValue) (screen : Option ℕ)
deriving DecidableEq, Repr

/-- `frontmost_application_monitor::application`. -/
structure FrontmostApplication where
  bundleIdentifier : Option String := none
  bundlePath : Option String := none
  filePath : Option String := none
  pid : Option ℤ := none
deriving DecidableEq, Repr

/-- `input_source::properties`. -/
structure InputSourceProperties where
  inputSourceId : Option String := none
  localizedName : Option String := none
  inputModeId : Option String := none
  languages : List String := []
  firstLanguage : Option String := none
deriving DecidableEq, Repr

/-- `virtual_hid_devices_state`. -/
structure VirtualHidDevicesState where
  virtualHidKeyboardReady : Bool := false
  virtualHidPointingReady : Bool := false
deriving DecidableEq, Repr

/-- `system_preferences::properties`, the two settings the event queue reads. -/
structure SystemPreferencesProperties where
  useFkeysAsStandardFunctionKeys : Bool
  scrollDirectionIsNatural : Bool
deriving DecidableEq, Repr

/-- `manipulator_environment_variable_value`. -/
inductive VariableValue
  | integer (n : ℤ)
  | boolean (b : Bool)
  | string (s : String)
deriving DecidableEq, Repr

/-- A shared pointer to an `exprtk_utility::expression_wrapper`: its address and the expression
it was compiled from. -/
structure ExpressionWrapper where
  address : ℕ
  expressionString : String
deriving DecidableEq, Repr

/-- `manipulator_environment_variable_set_variable::type`. -/
inductive SetVariableType
  | set
  | unset
deriving DecidableEq, Repr

/-- `manipulator_environment_variable_set_variable`. -/
structure SetVariable where
  name : Option String := none
  value : Option VariableValue := none
  expression : Option ExpressionWrapper := none
  keyUpValue : Option VariableValue := none
  keyUpExpression : Option ExpressionWrapper := none
  type : SetVariableType := .set
deriving DecidableEq, Repr

/-- A shared pointer to a `device_properties`, by its address. -/
abbrev DevicePropertiesPtr := ℕ

/-! ### Events -/

/-- `event_queue::event`. -/
inductive Event
  | none
  | momentarySwitchEvent (e : MomentarySwitchEvent)
  | pointingMotion (m : PointingMotion)
  -- virtual events
  | shellCommand (command : String)
  | selectInputSource (specifiers : List InputSourceSpecifier)
  | setVariable (v : SetVariable)
  | setNotificationMessage (m : NotificationMessage)
  | mouseKey (m : MouseKey)
  | stickyModifier (m : ModifierFlag) (type : StickyModifierType)
  | softwareFunction (f : SoftwareFunction)
  | stopKeyboardRepeat
  -- virtual events (passive)
  | deviceKeysAndPointingButtonsAreReleased
  | deviceGrabbed (properties : DevicePropertiesPtr)
  | deviceUngrabbed
  | capsLockStateChanged (state : ℤ)
  | pointingDeviceEventFromEventTap
  | frontmostApplicationChanged (application : FrontmostApplication)
  | inputSourceChanged (properties : InputSourceProperties)
  | systemPreferencesPropertiesChanged (properties : SystemPreferencesProperties)
  | virtualHidDevicesStateChanged (state : VirtualHidDevicesState)
deriving DecidableEq, Repr

namespace Event

/-- `get_if<momentary_switch_event>`. -/
def getMomentarySwitchEvent : Event → Option MomentarySwitchEvent
  | momentarySwitchEvent e => some e
  | _ => Option.none

/-- `get_pointing_motion`. -/
def getPointingMotion : Event → Option PointingMotion
  | pointingMotion m => some m
  | _ => Option.none

@[simp] theorem getMomentarySwitchEvent_eq_some {e : Event} {s : MomentarySwitchEvent} :
    e.getMomentarySwitchEvent = some s ↔ e = momentarySwitchEvent s := by
  cases e <;> simp [getMomentarySwitchEvent]

end Event

/-! ### Entries -/

/-- `event_time_stamp`. -/
structure EventTimeStamp where
  timeStamp : AbsoluteTime
  inputDelayDuration : AbsoluteTime := 0
deriving DecidableEq, Repr

/-- `make_time_stamp_with_input_delay`. -/
def EventTimeStamp.makeTimeStampWithInputDelay (t : EventTimeStamp) : AbsoluteTime :=
  t.timeStamp + t.inputDelayDuration

/-- `event_queue::state`. -/
inductive EntryState
  | original
  | manipulated
  | virtualEvent
deriving DecidableEq, Repr

/-- `event_queue::entry`. -/
structure Entry where
  deviceId : DeviceId
  eventTimeStamp : EventTimeStamp
  event : Event
  eventType : EventType
  originalEvent : Event
  state : EntryState
  isLazy : Bool := false
  validity : Validity := .valid
deriving DecidableEq, Repr

end Karabiner
