import Karabiner.EventQueue.Event.SetVariableJson
import Karabiner.EventQueue.Event.SoftwareFunctionJson
import Karabiner.MomentarySwitchEvent.Json

/-!
# The JSON of events

`event::to_json` and `event::make_from_json` of `share/event_queue/event.hpp`.

The reader swallows every error and returns what it has read so far, which can be a type without
the value that belongs to it.  It therefore works on an `EventObject`, the pair of members that the
class has; `Event.object` is the pair of a well-formed event.

* `Event.makeFromJson_toJson` — **when an event is read back**: for which payloads the writer and
  the reader fit together.
-/

namespace Karabiner

open JsonUtility

/-! ### The members of the class -/

/-- `event::type`. -/
inductive Event.Type
  | none
  | momentarySwitchEvent
  | pointingMotion
  | shellCommand
  | selectInputSource
  | setVariable
  | setNotificationMessage
  | mouseKey
  | stickyModifier
  | softwareFunction
  | stopKeyboardRepeat
  | deviceKeysAndPointingButtonsAreReleased
  | deviceGrabbed
  | deviceUngrabbed
  | capsLockStateChanged
  | pointingDeviceEventFromEventTap
  | frontmostApplicationChanged
  | inputSourceChanged
  | systemPreferencesPropertiesChanged
  | virtualHidDevicesStateChanged
deriving DecidableEq, Repr

/-- `event::value_t`. -/
inductive Event.Value
  | momentarySwitchEvent (e : MomentarySwitchEvent)
  | pointingMotion (m : PointingMotion)
  | integer (n : ℤ)
  | string (s : String)
  | specifiers (specifiers : List InputSourceSpecifier)
  | setVariable (v : SetVariable)
  | notificationMessage (m : NotificationMessage)
  | mouseKey (m : MouseKey)
  | stickyModifier (m : ModifierFlag) (type : StickyModifierType)
  | softwareFunction (f : SoftwareFunction)
  | frontmostApplication (application : FrontmostApplication)
  | inputSourceProperties (properties : InputSourceProperties)
  | deviceProperties (properties : DevicePropertiesPtr)
  | systemPreferencesProperties (properties : SystemPreferencesProperties)
  | virtualHidDevicesState (state : VirtualHidDevicesState)
  | monostate
deriving DecidableEq, Repr

/-- The members of an `event`, by default those that its constructor sets. -/
structure EventObject where
  type : Event.Type := .none
  value : Event.Value := .monostate
deriving DecidableEq, Repr

/-- `operator==` of the values. -/
def Event.Value.beq : Event.Value → Event.Value → Bool
  | .setVariable v, .setVariable w => v.beq w
  | a, b => a = b

/-- `operator==`. -/
def EventObject.beq (a b : EventObject) : Bool := a.type = b.type && a.value.beq b.value

namespace Event

/-- The members of an event. -/
def object : Event → EventObject
  | none => ⟨.none, .monostate⟩
  | momentarySwitchEvent e => ⟨.momentarySwitchEvent, .momentarySwitchEvent e⟩
  | pointingMotion m => ⟨.pointingMotion, .pointingMotion m⟩
  | shellCommand command => ⟨.shellCommand, .string command⟩
  | selectInputSource specifiers => ⟨.selectInputSource, .specifiers specifiers⟩
  | setVariable v => ⟨.setVariable, .setVariable v⟩
  | setNotificationMessage m => ⟨.setNotificationMessage, .notificationMessage m⟩
  | mouseKey m => ⟨.mouseKey, .mouseKey m⟩
  | stickyModifier m type => ⟨.stickyModifier, .stickyModifier m type⟩
  | softwareFunction f => ⟨.softwareFunction, .softwareFunction f⟩
  | stopKeyboardRepeat => ⟨.stopKeyboardRepeat, .monostate⟩
  | deviceKeysAndPointingButtonsAreReleased =>
    ⟨.deviceKeysAndPointingButtonsAreReleased, .monostate⟩
  | deviceGrabbed properties => ⟨.deviceGrabbed, .deviceProperties properties⟩
  | deviceUngrabbed => ⟨.deviceUngrabbed, .monostate⟩
  | capsLockStateChanged state => ⟨.capsLockStateChanged, .integer state⟩
  | pointingDeviceEventFromEventTap => ⟨.pointingDeviceEventFromEventTap, .monostate⟩
  | frontmostApplicationChanged application =>
    ⟨.frontmostApplicationChanged, .frontmostApplication application⟩
  | inputSourceChanged properties => ⟨.inputSourceChanged, .inputSourceProperties properties⟩
  | systemPreferencesPropertiesChanged properties =>
    ⟨.systemPreferencesPropertiesChanged, .systemPreferencesProperties properties⟩
  | virtualHidDevicesStateChanged state =>
    ⟨.virtualHidDevicesStateChanged, .virtualHidDevicesState state⟩

/-- `to_c_string`. -/
def toCString : Event.Type → String
  | .none => "none"
  | .momentarySwitchEvent => "momentary_switch_event"
  | .pointingMotion => "pointing_motion"
  | .shellCommand => "shell_command"
  | .selectInputSource => "select_input_source"
  | .setVariable => "set_variable"
  | .setNotificationMessage => "set_notification_message"
  | .mouseKey => "mouse_key"
  | .stickyModifier => "sticky_modifier"
  | .softwareFunction => "software_function"
  | .stopKeyboardRepeat => "stop_keyboard_repeat"
  | .deviceKeysAndPointingButtonsAreReleased => "device_keys_and_pointing_buttons_are_released"
  | .deviceGrabbed => "device_grabbed"
  | .deviceUngrabbed => "device_ungrabbed"
  | .capsLockStateChanged => "caps_lock_state_changed"
  | .pointingDeviceEventFromEventTap => "pointing_device_event_from_event_tap"
  | .frontmostApplicationChanged => "frontmost_application_changed"
  | .inputSourceChanged => "input_source_changed"
  | .systemPreferencesPropertiesChanged => "system_preferences_properties_changed"
  | .virtualHidDevicesStateChanged => "virtual_hid_devices_state_changed"

/-- The types whose names `to_type` tries; any other name stands for `none`. -/
def types : List Event.Type :=
  [.momentarySwitchEvent, .pointingMotion, .shellCommand, .selectInputSource, .setVariable,
    .setNotificationMessage, .mouseKey, .stickyModifier, .softwareFunction, .stopKeyboardRepeat,
    .deviceKeysAndPointingButtonsAreReleased, .deviceGrabbed, .deviceUngrabbed,
    .capsLockStateChanged, .pointingDeviceEventFromEventTap, .frontmostApplicationChanged,
    .inputSourceChanged, .systemPreferencesPropertiesChanged, .virtualHidDevicesStateChanged]

/-- `to_type`. -/
def toType (t : String) : Event.Type := (types.find? fun type => t = toCString type).getD .none

theorem toType_toCString (type : Event.Type) : toType (toCString type) = type := by
  cases type <;> rfl

/-! ### Writing and reading -/

/-- The member that holds the value. -/
def payload : Event → Option (String × Json)
  | momentarySwitchEvent e => some ("momentary_switch_event", e.toJson)
  | pointingMotion m => some ("pointing_motion", m.toJson)
  | capsLockStateChanged state => some ("caps_lock_state_changed", .integer state)
  | shellCommand command => some ("shell_command", .string command)
  | selectInputSource specifiers =>
    some ("input_source_specifiers", InputSourceSpecifier.vectorToJson specifiers)
  | setVariable v => some ("set_variable", v.toJson)
  | setNotificationMessage m => some ("set_notification_message", m.toJson)
  | mouseKey m => some ("mouse_key", m.toJson)
  | stickyModifier m type => some ("sticky_modifier", StickyModifier.toJson m type)
  | softwareFunction f => some ("software_function", f.toJson)
  | frontmostApplicationChanged application => some ("frontmost_application", application.toJson)
  | inputSourceChanged properties => some ("input_source_properties", properties.toJson)
  | systemPreferencesPropertiesChanged properties =>
    some ("system_preferences_properties", properties.toJson)
  | virtualHidDevicesStateChanged state => some ("virtual_hid_devices_state", state.toJson)
  | _ => Option.none

/-- `to_json`. -/
def toJson (e : Event) : Json :=
  let json := Json.null |> Json.assign "type" (.string (toCString e.object.type))
  match e.payload with
  | some (key, value) => Json.assign key value json
  | Option.none => json

section

variable [NlohmannJson] [Regex] [Exprtk]

/-- `get<std::string>`. -/
def getString : Json → JsonM String
  | .string s => .ok s
  | _ => .error .exception

/-- `get<int64_t>`. -/
def getInt64 (json : Json) : JsonM ℤ :=
  match json.toInt 64 with
  | some n => .ok n
  | Option.none => .error .exception

/-- One member.  Other keys are ignored. -/
def readMember (allocate : String → ℕ) (result : EventObject) (key : String) (json : Json) :
    JsonM EventObject :=
  if key = "type" then return { result with type := toType (← getString json) }
  else if key = "momentary_switch_event" then
    return { result with value := .momentarySwitchEvent (← MomentarySwitchEvent.fromJson json) }
  else if key = "pointing_motion" then
    return { result with value := .pointingMotion (← PointingMotion.fromJson json) }
  else if key = "caps_lock_state_changed" then
    return { result with value := .integer (← getInt64 json) }
  else if key = "shell_command" then
    return { result with value := .string (← getString json) }
  else if key = "input_source_specifiers" then
    return { result with value := .specifiers (← InputSourceSpecifier.vectorFromJson json) }
  else if key = "set_variable" then
    return { result with value := .setVariable (← SetVariable.fromJson allocate json) }
  else if key = "set_notification_message" then
    return { result with value := .notificationMessage (← NotificationMessage.fromJson json) }
  else if key = "mouse_key" then
    return { result with value := .mouseKey (← MouseKey.fromJson json) }
  else if key = "sticky_modifier" then do
    let (m, type) ← StickyModifier.fromJson json
    return { result with value := .stickyModifier m type }
  else if key = "software_function" then
    return { result with value := .softwareFunction (← SoftwareFunction.fromJson json) }
  else if key = "frontmost_application" then
    return { result with value := .frontmostApplication (← FrontmostApplication.fromJson json) }
  else if key = "input_source_properties" then
    return { result with value := .inputSourceProperties (← InputSourceProperties.fromJson json) }
  else if key = "system_preferences_properties" then
    return { result with
      value := .systemPreferencesProperties (← SystemPreferencesProperties.fromJson json) }
  else if key = "virtual_hid_devices_state" then
    return { result with
      value := .virtualHidDevicesState (← VirtualHidDevicesState.fromJson json) }
  else return result

/-- The loop of the reader, which an exception ends. -/
def readUntilError (allocate : String → ℕ) (result : EventObject) : Json.Members → EventObject
  | [] => result
  | (key, json) :: members =>
    match readMember allocate result key json with
    | .ok result => readUntilError allocate result members
    | .error _ => result

/-- `make_from_json`. -/
def makeFromJson (allocate : String → ℕ) (json : Json) : EventObject :=
  match json with
  | .object members => readUntilError allocate {} members
  | _ => {}

/-! ### What is read back -/

omit [NlohmannJson] in
/-- The payload is a value of its type in the source. -/
def Fits : Event → Prop
  | pointingMotion m => m.Fits
  | selectInputSource specifiers => ∀ s ∈ specifiers, s.Compiles
  | setVariable v => v.Fits
  | mouseKey m => m.Fits
  | softwareFunction f => f.Fits
  | capsLockStateChanged state => Json.FitsInt 64 state
  | frontmostApplicationChanged application => application.Fits
  | _ => True

omit [NlohmannJson] [Regex] in
/-- The writer and the reader of the payload fit together. -/
def RoundTrips : Event → Prop
  | momentarySwitchEvent e =>
    e ≠ ⟨⟨UsagePage.keyboardOrKeypad, 0x7f⟩⟩ ∧
      e ≠ ⟨⟨UsagePage.keyboardOrKeypad, Usage.undefined⟩⟩
  | setVariable v => v.RoundTrips
  | stickyModifier m _ => m ≠ .end_
  | softwareFunction f => f.RoundTrips
  | _ => True

/-- What is read when the value comes before the type. -/
theorem makeFromJson_object (allocate : String → ℕ) (key : String) (json : Json)
    (type : Event.Type) :
    makeFromJson allocate (.object [(key, json), ("type", .string (toCString type))]) =
      match readMember allocate {} key json with
      | .ok result => { result with type := type }
      | .error _ => {} := by
  have htype (result : EventObject) :
      readMember allocate result "type" (.string (toCString type)) =
        .ok { result with type := type } := by
    simp [readMember, getString, toType_toCString]
  cases hread : readMember allocate {} key json with
  | ok result => simp [makeFromJson, readUntilError, hread, htype]
  | error error => simp [makeFromJson, readUntilError, hread]

section

variable {α : Type} (allocate : String → ℕ) (e : Event) (wrap : α → Event.Value)
variable {key : String} {json : Json} {result : JsonM α}

omit [NlohmannJson] [Regex] [Exprtk] in
/-- The two members of an event with a payload; all keys but one come before `type`. -/
theorem toJson_of_payload (hpayload : e.payload = some (key, json))
    (hkey : decide (key < "type") = true) :
    e.toJson = .object [(key, json), ("type", .string (toCString e.object.type))] := by
  have hkey : key < "type" := of_decide_eq_true hkey
  simp [toJson, hpayload, Json.assign, Json.set, hkey]

/-- A value that a reader gives, or else an event that is not read back. -/
theorem beq_makeFromJson_iff (hpayload : e.payload = some (key, json))
    (hkey : decide (key < "type") = true) (htype : decide (e.object.type = .none) = false)
    (hread : readMember allocate {} key json = result >>= fun v => .ok ⟨.none, wrap v⟩) :
    (makeFromJson allocate e.toJson).beq e.object = true ↔
      ∃ v, result = .ok v ∧ (wrap v).beq e.object.value = true := by
  have htype : e.object.type ≠ .none := of_decide_eq_false htype
  rw [toJson_of_payload e hpayload hkey, makeFromJson_object, hread]
  cases result with
  | ok v => simp [EventObject.beq]
  | error error => simp [EventObject.beq, bind, Except.bind, Ne.symm htype]

/-- The readers of most payloads give the very value. -/
theorem beq_makeFromJson_iff_of_injective {value : α} (hpayload : e.payload = some (key, json))
    (hkey : decide (key < "type") = true) (htype : decide (e.object.type = .none) = false)
    (hread : readMember allocate {} key json = result >>= fun v => .ok ⟨.none, wrap v⟩)
    (hvalue : e.object.value = wrap value)
    (hwrap : ∀ v w, (wrap v).beq (wrap w) = true ↔ v = w) :
    (makeFromJson allocate e.toJson).beq e.object = true ↔ result = .ok value := by
  rw [beq_makeFromJson_iff allocate e wrap hpayload hkey htype hread, hvalue]
  simp only [hwrap]
  exact ⟨fun ⟨v, h, hv⟩ => hv ▸ h, fun h => ⟨value, h, rfl⟩⟩

end

/-- **When an event is read back.**  Every type but `device_grabbed`, and every named switch. -/
theorem makeFromJson_toJson (allocate : String → ℕ) {e : Event} (hfits : e.Fits)
    (hgrabbed : ∀ properties, e ≠ deviceGrabbed properties)
    (hname : ∀ s, e = momentarySwitchEvent s → s.HasName) :
    (makeFromJson allocate e.toJson).beq e.object = true ↔ e.RoundTrips := by
  cases e with
  | none => exact iff_of_true rfl trivial
  | momentarySwitchEvent s =>
      have hread := beq_makeFromJson_iff_of_injective allocate (momentarySwitchEvent s)
        .momentarySwitchEvent rfl rfl rfl rfl rfl (by simp [Value.beq])
      exact hread.trans (MomentarySwitchEvent.fromJson_toJson (hname s rfl))
  | pointingMotion m =>
      have hread := beq_makeFromJson_iff_of_injective allocate (pointingMotion m)
        .pointingMotion rfl rfl rfl rfl rfl (by simp [Value.beq])
      exact hread.trans (iff_of_true (PointingMotion.fromJson_toJson hfits) trivial)
  | shellCommand command =>
      have hread := beq_makeFromJson_iff_of_injective allocate (shellCommand command)
        .string rfl rfl rfl rfl rfl (by simp [Value.beq])
      exact hread.trans (iff_of_true rfl trivial)
  | selectInputSource specifiers =>
      have hread := beq_makeFromJson_iff_of_injective allocate (selectInputSource specifiers)
        .specifiers rfl rfl rfl rfl rfl (by simp [Value.beq])
      exact hread.trans
        (iff_of_true (InputSourceSpecifier.vectorFromJson_vectorToJson hfits) trivial)
  | setVariable v =>
      have hread := beq_makeFromJson_iff allocate (setVariable v) .setVariable rfl rfl rfl rfl
      exact hread.trans (SetVariable.fromJson_toJson hfits allocate)
  | setNotificationMessage m =>
      have hread := beq_makeFromJson_iff_of_injective allocate (setNotificationMessage m)
        .notificationMessage rfl rfl rfl rfl rfl (by simp [Value.beq])
      exact hread.trans (iff_of_true (NotificationMessage.fromJson_toJson m) trivial)
  | mouseKey m =>
      have hread := beq_makeFromJson_iff_of_injective allocate (mouseKey m)
        .mouseKey rfl rfl rfl rfl rfl (by simp [Value.beq])
      exact hread.trans (iff_of_true (MouseKey.fromJson_toJson hfits) trivial)
  | stickyModifier m type =>
      have hread := beq_makeFromJson_iff_of_injective allocate (stickyModifier m type)
        (fun p : ModifierFlag × StickyModifierType => .stickyModifier p.1 p.2) rfl rfl rfl rfl
        (show _ = (fun p : _ × _ => Value.stickyModifier p.1 p.2) (m, type) from rfl)
        (by simp [Value.beq, Prod.ext_iff])
      exact hread.trans (StickyModifier.fromJson_toJson m type)
  | softwareFunction f =>
      have hread := beq_makeFromJson_iff_of_injective allocate (softwareFunction f)
        .softwareFunction rfl rfl rfl rfl rfl (by simp [Value.beq])
      exact hread.trans (SoftwareFunction.fromJson_toJson hfits)
  | stopKeyboardRepeat => exact iff_of_true rfl trivial
  | deviceKeysAndPointingButtonsAreReleased => exact iff_of_true rfl trivial
  | deviceGrabbed properties => exact absurd rfl (hgrabbed properties)
  | deviceUngrabbed => exact iff_of_true rfl trivial
  | capsLockStateChanged state =>
      have hread := beq_makeFromJson_iff_of_injective allocate (capsLockStateChanged state)
        .integer rfl rfl rfl rfl rfl (by simp [Value.beq])
      have hstate : getInt64 (.integer state) = .ok state := by
        rw [getInt64, Json.toInt_integer hfits]
      exact hread.trans (iff_of_true hstate trivial)
  | pointingDeviceEventFromEventTap => exact iff_of_true rfl trivial
  | frontmostApplicationChanged application =>
      have hread := beq_makeFromJson_iff_of_injective allocate
        (frontmostApplicationChanged application) .frontmostApplication rfl rfl rfl rfl rfl
        (by simp [Value.beq])
      exact hread.trans (iff_of_true (FrontmostApplication.fromJson_toJson hfits) trivial)
  | inputSourceChanged properties =>
      have hread := beq_makeFromJson_iff_of_injective allocate (inputSourceChanged properties)
        .inputSourceProperties rfl rfl rfl rfl rfl (by simp [Value.beq])
      exact hread.trans (iff_of_true (InputSourceProperties.fromJson_toJson properties) trivial)
  | systemPreferencesPropertiesChanged properties =>
      have hread := beq_makeFromJson_iff_of_injective allocate
        (systemPreferencesPropertiesChanged properties) .systemPreferencesProperties rfl rfl rfl rfl
        rfl (by simp [Value.beq])
      exact hread.trans
        (iff_of_true (SystemPreferencesProperties.fromJson_toJson properties) trivial)
  | virtualHidDevicesStateChanged state =>
      -- This key comes after `type`.
      have hread : makeFromJson allocate (toJson (virtualHidDevicesStateChanged state)) =
          object (virtualHidDevicesStateChanged state) := rfl
      exact iff_of_true (by simp [hread, EventObject.beq, object, Value.beq]) trivial

end

/-- An action on a variable with an expression of two lines. -/
def setLayer : Event :=
  setVariable
    { name := some "layer", expression := some ⟨7, "layer +\n1"⟩, keyUpValue := some (.integer 0) }

/-- The action is read back, with its expression at another address. -/
theorem makeFromJson_toJson_setLayer :
    ∃ (_ : NlohmannJson) (_ : Regex) (_ : Exprtk),
      (makeFromJson (fun _ => 8) setLayer.toJson).beq setLayer.object = true := by
  let json : NlohmannJson := ⟨fun _ => "", fun _ => .none⟩
  let regex : Regex := ⟨fun _ => .none⟩
  let exprtk : Exprtk := .singleVariable
  refine ⟨json, regex, exprtk, ?_⟩
  refine (makeFromJson_toJson (fun _ => 8) (e := setLayer) ⟨?_, ?_⟩ nofun nofun).mpr ⟨?_, ?_⟩
  · exact nofun
  · rintro value ⟨⟩
    exact (by decide : Json.FitsInt 64 0)
  · rintro e ⟨⟩
    exact ⟨by decide, rfl⟩
  · exact nofun

/-- The `mute` key of the keyboard page. -/
def mute : Event := momentarySwitchEvent ⟨⟨UsagePage.keyboardOrKeypad, 0x7f⟩⟩

/-- The `mute` key of the keyboard page has a name, but the reader looks it up in the table of the
other pages first. -/
theorem not_makeFromJson_toJson_mute :
    ¬ ∀ (_ : NlohmannJson) (_ : Regex) (_ : Exprtk) (allocate : String → ℕ) (e : Event), e.Fits →
      (∀ properties, e ≠ deviceGrabbed properties) →
      (∀ s, e = momentarySwitchEvent s → s.HasName) →
      (makeFromJson allocate e.toJson).beq e.object = true := by
  intro h
  have hmute := h ⟨fun _ => "", fun _ => .none⟩ ⟨fun _ => .none⟩ .singleVariable (fun _ => 0) mute
    trivial nofun (fun s hs => by obtain rfl := Event.momentarySwitchEvent.inj hs; decide)
  exact absurd hmute (by decide)

end Event

end Karabiner
