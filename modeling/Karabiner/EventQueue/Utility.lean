import Karabiner.EventQueue.Event
import Karabiner.MomentarySwitchEvent
import Mathlib.Data.Finset.Insert
import Mathlib.Data.Finset.Erase

/-!
# From HID values to event queue entries

`share/event_queue/utility.hpp`, `share/hat_switch_convert.hpp` and
`share/pressed_keys_manager.hpp`.

* `makeEntries` — one entry for every momentary switch value, caps lock LED value and d-pad change;
  the pointing motion values of a report are joined into one entry.
* `insertDeviceKeysAndPointingButtonsAreReleasedEvent` — an extra entry where a device releases
  the last of its switches.
-/

namespace Karabiner

/-- `iokit_hid_value`. -/
structure HidValue where
  timeStamp : AbsoluteTime
  integerValue : ℤ
  usagePage : Option ℤ
  usage : Option ℤ
deriving DecidableEq, Repr

/-- `conforms_to`. -/
def HidValue.conformsTo (v : HidValue) (usagePage usage : ℤ) : Bool :=
  v.usagePage = some usagePage && v.usage = some usage

/-- `device_properties`, the parts the event queue and the grabber read. -/
structure DeviceProperties where
  deviceId : DeviceId
  vendorId : ℕ := 0
  productId : ℕ := 0
  isGamePad : Bool := false
  isVirtualDevice : Bool := false
  isApple : Bool := false
  transport : Option String := none
deriving DecidableEq, Repr

/-- `is_nintendo_pro_controller_0x057e_0x2009`. -/
def DeviceProperties.isNintendoProController (d : DeviceProperties) : Bool :=
  d.vendorId = 0x057e && d.productId = 0x2009

/-! ### The hat switch -/

/-- `hat_switch_converter::direction`, the set of its bits. -/
structure Direction where
  up : Bool := false
  down : Bool := false
  right : Bool := false
  left : Bool := false
deriving DecidableEq, Repr

namespace Direction

/-- The direction of a hat switch value. -/
def ofHatSwitchValue (value : ℤ) : Direction :=
  if value = 0 then { up := true }
  else if value = 1 then { up := true, right := true }
  else if value = 2 then { right := true }
  else if value = 3 then { down := true, right := true }
  else if value = 4 then { down := true }
  else if value = 5 then { down := true, left := true }
  else if value = 6 then { left := true }
  else if value = 7 then { up := true, left := true }
  else {}

/-- `hat_switch_converter::to_dpad_events`: the changes from the last direction. -/
def toDpadEvents (last current : Direction) : List (MomentarySwitchEvent × EventType) :=
  [(last.up, current.up, Usage.GenericDesktop.dpadUp),
    (last.down, current.down, Usage.GenericDesktop.dpadDown),
    (last.right, current.right, Usage.GenericDesktop.dpadRight),
    (last.left, current.left, Usage.GenericDesktop.dpadLeft)].filterMap
    fun (last, current, usage) =>
      if !last && current then some (⟨⟨UsagePage.genericDesktop, usage⟩⟩, .keyDown)
      else if last && !current then some (⟨⟨UsagePage.genericDesktop, usage⟩⟩, .keyUp)
      else none

end Direction

/-! ### Making entries -/

/-- `make_entries_parameters`.  A multiplier is the product with it, as a `double`, cast to an
integer. -/
structure MakeEntriesParameters where
  pointingMotionXyMultiplier : ℤ → ℤ := id
  pointingMotionWheelsMultiplier : ℤ → ℤ := id

/-- `adjust_pointing_motion_value`. -/
def adjustPointingMotionValue (value : HidValue) (multiplier : ℤ → ℤ) : ℤ :=
  let v := multiplier value.integerValue
  if v = 0 ∧ value.integerValue > 0 then 1
  else if v = 0 ∧ value.integerValue < 0 then -1
  else min 127 (max (-127) v)

/-- The local variables of `make_entries`, and the direction of the device in the global hat
switch converter. -/
structure MakeEntriesState where
  result : List Entry := []
  pointingMotionTimeStamp : Option AbsoluteTime := none
  pointingMotionX : Option ℤ := none
  pointingMotionY : Option ℤ := none
  pointingMotionVerticalWheel : Option ℤ := none
  pointingMotionHorizontalWheel : Option ℤ := none
  lastDirection : Direction := {}
deriving DecidableEq, Repr

namespace MakeEntriesState

/-- An entry as `make_entries` constructs it: the event is its own original event. -/
def makeEntry (deviceId : DeviceId) (timeStamp : AbsoluteTime) (event : Event)
    (eventType : EventType) (state : EntryState) : Entry where
  deviceId := deviceId
  eventTimeStamp := ⟨timeStamp, 0⟩
  event := event
  eventType := eventType
  originalEvent := event
  state := state

/-- `emplace_back_pointing_motion_event`. -/
def emplaceBackPointingMotionEvent (d : DeviceProperties) (s : MakeEntriesState) :
    MakeEntriesState :=
  match s.pointingMotionTimeStamp with
  | none => s
  | some timeStamp =>
    let motion : PointingMotion :=
      ⟨s.pointingMotionX.getD 0, s.pointingMotionY.getD 0, s.pointingMotionVerticalWheel.getD 0,
        s.pointingMotionHorizontalWheel.getD 0⟩
    { result := s.result ++
        [makeEntry d.deviceId timeStamp (.pointingMotion motion) .single .original]
      lastDirection := s.lastDirection }

/-- Join a value into the pending motion; a second value of the same axis (`pending`) first
emits the motion. -/
def joinPointingMotion (d : DeviceProperties) (s : MakeEntriesState) (pending : Option ℤ)
    (timeStamp : AbsoluteTime) (set : MakeEntriesState → MakeEntriesState) : MakeEntriesState :=
  let s := if pending.isSome then s.emplaceBackPointingMotionEvent d else s
  set { s with pointingMotionTimeStamp := some timeStamp }

/-- The body of the loop of `make_entries`. -/
def step (d : DeviceProperties) (parameters : MakeEntriesParameters) (s : MakeEntriesState)
    (v : HidValue) : MakeEntriesState :=
  let xy := adjustPointingMotionValue v parameters.pointingMotionXyMultiplier
  let wheels := adjustPointingMotionValue v parameters.pointingMotionWheelsMultiplier
  match v.usagePage, v.usage with
  | some usagePage, some usage =>
    if MomentarySwitchEvent.target usagePage usage then
      { s with
        result := s.result ++
          [makeEntry d.deviceId v.timeStamp (.momentarySwitchEvent ⟨⟨usagePage, usage⟩⟩)
            (if v.integerValue ≠ 0 then .keyDown else .keyUp) .original] }
    else if v.conformsTo UsagePage.genericDesktop Usage.GenericDesktop.x && !d.isGamePad then
      s.joinPointingMotion d s.pointingMotionX v.timeStamp fun s =>
        { s with pointingMotionX := some xy }
    else if v.conformsTo UsagePage.genericDesktop Usage.GenericDesktop.y && !d.isGamePad then
      s.joinPointingMotion d s.pointingMotionY v.timeStamp fun s =>
        { s with pointingMotionY := some xy }
    else if v.conformsTo UsagePage.genericDesktop Usage.GenericDesktop.wheel then
      s.joinPointingMotion d s.pointingMotionVerticalWheel v.timeStamp fun s =>
        { s with pointingMotionVerticalWheel := some wheels }
    else if v.conformsTo UsagePage.consumer Usage.Consumer.acPan then
      s.joinPointingMotion d s.pointingMotionHorizontalWheel v.timeStamp fun s =>
        { s with pointingMotionHorizontalWheel := some wheels }
    else if v.conformsTo UsagePage.leds Usage.Led.capsLock then
      { s with
        result := s.result ++
          [makeEntry d.deviceId v.timeStamp (.capsLockStateChanged v.integerValue) .single
            .virtualEvent] }
    else if d.isGamePad &&
        v.conformsTo UsagePage.genericDesktop Usage.GenericDesktop.hatSwitch then
      -- Convert hat switch to dpad.
      let current := Direction.ofHatSwitchValue v.integerValue
      { s with
        result := s.result ++ (s.lastDirection.toDpadEvents current).map fun pair =>
          makeEntry d.deviceId v.timeStamp (.momentarySwitchEvent pair.1) pair.2 .original
        lastDirection := current }
    else s
  | _, _ => s

end MakeEntriesState

/-- `make_entries`, with the direction the hat switch converter holds for the device before and
after. -/
def makeEntries (d : DeviceProperties) (hidValues : List HidValue)
    (parameters : MakeEntriesParameters) (lastDirection : Direction) : List Entry × Direction :=
  let s := hidValues.foldl (MakeEntriesState.step d parameters) { lastDirection := lastDirection }
  let s := s.emplaceBackPointingMotionEvent d
  (s.result, s.lastDirection)

namespace MakeEntriesState

/-- The entries made so far are entries of the device. -/
def OfDevice (d : DeviceProperties) (s : MakeEntriesState) : Prop :=
  ∀ e ∈ s.result, e.deviceId = d.deviceId

theorem OfDevice.append {d : DeviceProperties} {s s' : MakeEntriesState} (h : s.OfDevice d)
    {l : List Entry} (hl : ∀ e ∈ l, e.deviceId = d.deviceId) (hs' : s'.result = s.result ++ l) :
    s'.OfDevice d := by
  intro e he
  rw [hs', List.mem_append] at he
  exact he.elim (h e) (hl e)

theorem OfDevice.emplaceBackPointingMotionEvent {d : DeviceProperties} {s : MakeEntriesState}
    (h : s.OfDevice d) : (s.emplaceBackPointingMotionEvent d).OfDevice d := by
  unfold MakeEntriesState.emplaceBackPointingMotionEvent
  cases s.pointingMotionTimeStamp with
  | none => exact h
  | some t => exact h.append (l := [_]) (by simp [makeEntry]) rfl

theorem OfDevice.step {d : DeviceProperties} {s : MakeEntriesState} (h : s.OfDevice d)
    (parameters : MakeEntriesParameters) (v : HidValue) : (s.step d parameters v).OfDevice d := by
  have hjoin : ∀ pending : Option ℤ, OfDevice d
      (if pending.isSome then s.emplaceBackPointingMotionEvent d else s) := by
    intro pending
    split_ifs
    · exact h.emplaceBackPointingMotionEvent
    · exact h
  unfold MakeEntriesState.step
  split
  · split_ifs
    · exact h.append (l := [_]) (by simp [makeEntry]) rfl
    · exact h.append (l := [_]) (by simp [makeEntry]) rfl
    · exact hjoin _
    · exact hjoin _
    · exact hjoin _
    · exact hjoin _
    · exact h.append (l := [_]) (by simp [makeEntry]) rfl
    · refine h.append (fun e he => ?_) rfl
      obtain ⟨pair, -, rfl⟩ := List.mem_map.mp he
      rfl
    · exact h
  · exact h

end MakeEntriesState

/-- Every entry is made for the device. -/
theorem makeEntries_deviceId (d : DeviceProperties) (hidValues : List HidValue)
    (parameters : MakeEntriesParameters) (lastDirection : Direction) :
    ∀ e ∈ (makeEntries d hidValues parameters lastDirection).1, e.deviceId = d.deviceId := by
  have hfold : ∀ s : MakeEntriesState, s.OfDevice d →
      (hidValues.foldl (MakeEntriesState.step d parameters) s).OfDevice d := by
    induction hidValues with
    | nil => exact fun s hs => hs
    | cons v vs ih => exact fun s hs => ih _ (hs.step parameters v)
  exact (hfold _ fun e he => by simp at he).emplaceBackPointingMotionEvent

/-! ### Released switches -/

/-- `pressed_keys_manager`. -/
abbrev PressedKeysManager := Finset MomentarySwitchEvent

/-- The entry that says that a device has released everything. -/
def releasedEntry (deviceId : DeviceId) (eventTimeStamp : EventTimeStamp) : Entry where
  deviceId := deviceId
  eventTimeStamp := eventTimeStamp
  event := .deviceKeysAndPointingButtonsAreReleased
  eventType := .single
  originalEvent := .deviceKeysAndPointingButtonsAreReleased
  state := .virtualEvent

/-- What an entry does to the pressed keys of a device. -/
def updatePressedKeys (deviceId : DeviceId) (pressed : PressedKeysManager) (entry : Entry) :
    PressedKeysManager :=
  if entry.deviceId = deviceId then
    match entry.eventType, entry.event with
    | .keyDown, .momentarySwitchEvent e => insert e pressed
    | .keyUp, .momentarySwitchEvent e => pressed.erase e
    | _, _ => pressed
  else pressed

/-- The body of the loop of `insert_device_keys_and_pointing_buttons_are_released_event`: what it
pushes after the entry, and the pressed keys after it. -/
def insertReleasedEntry (deviceId : DeviceId) (pressed : PressedKeysManager) (entry : Entry) :
    List Entry × PressedKeysManager :=
  if entry.deviceId = deviceId && entry.eventType = .keyUp && pressed ≠ ∅ then
    let pressed := updatePressedKeys deviceId pressed entry
    (if pressed = ∅ then [releasedEntry deviceId entry.eventTimeStamp] else [], pressed)
  else ([], updatePressedKeys deviceId pressed entry)

/-- `insert_device_keys_and_pointing_buttons_are_released_event`. -/
def insertDeviceKeysAndPointingButtonsAreReleasedEvent (deviceId : DeviceId) :
    List Entry → PressedKeysManager → List Entry × PressedKeysManager
  | [], pressed => ([], pressed)
  | entry :: entries, pressed =>
    let (released, pressed) := insertReleasedEntry deviceId pressed entry
    let (result, pressed) :=
      insertDeviceKeysAndPointingButtonsAreReleasedEvent deviceId entries pressed
    (entry :: released ++ result, pressed)

end Karabiner
