import Karabiner.Library.Machine
import Karabiner.Manipulator.Basic

/-!
# The manipulator manager

`share/manipulator/manipulator_manager.hpp` with the two queues of a
`manipulator_managers_connector::connection`.  The manager takes the front entry of the input queue
through its manipulators and copies it to the output queue unless one of them has consumed it.

A connection is a machine (`Connection.step`).  Whatever is up to the rest of the program is an
input of the machine: entries that arrive, the clock at a call of `manipulate`, timers that fire,
reloads of the configuration, and other users of the output queue.

Two fields are not in the source: a slot has a serial number, which identifies a manipulator, and a
connection records the entries it has processed.
-/

namespace Karabiner

/-- A manipulator of the list `manipulators_`. -/
structure Slot where
  serial : ℕ
  basic : Basic

/-- `manipulator_manager`.  `nextSerial` is the serial number of the next insertion. -/
structure ManipulatorManager where
  manipulators : List Slot := []
  nextSerial : ℕ := 0

namespace ManipulatorManager

/-- `push_back_manipulator`. -/
def pushBackManipulator (m : ManipulatorManager) (d : BasicDefinition) : ManipulatorManager where
  manipulators := m.manipulators ++ [⟨m.nextSerial, { definition := d }⟩]
  nextSerial := m.nextSerial + 1

/-- `remove_invalid_manipulators`, which keeps active manipulators. -/
def removeInvalidManipulators (m : ManipulatorManager) : ManipulatorManager :=
  { m with
    manipulators := m.manipulators.filter fun slot =>
      !(slot.basic.validity = .invalid && !slot.basic.active) }

/-- Change every manipulator. -/
def map (m : ManipulatorManager) (f : Basic → Basic) : ManipulatorManager :=
  { m with manipulators := m.manipulators.map fun slot => { slot with basic := f slot.basic } }

/-- `invalidate_manipulators`. -/
def invalidateManipulators (m : ManipulatorManager) : ManipulatorManager :=
  (m.map fun b => { b with validity := .invalid }).removeInvalidManipulators

/-- Some manipulator has already manipulated the event. -/
def alreadyManipulated (m : ManipulatorManager) (front : Entry) : Bool :=
  m.manipulators.any fun slot => slot.basic.alreadyManipulated front

end ManipulatorManager

/-! ### The loop over the manipulators -/

variable [Exprtk] [SystemClock] [MachTimebase]

/-- What the loop leaves behind, and whether a manipulator has asked to wait. -/
structure Pass where
  waits : Bool
  slots : List Slot
  front : Entry
  output : Output

/-- The loop of `manipulator_manager::manipulate`. -/
def Slot.manipulateAll (rest : List Entry) (now : AbsoluteTime) :
    List Slot → Entry → Output → Pass
  | [], front, output => ⟨false, [], front, output⟩
  | slot :: slots, front, output =>
    let r := slot.basic.manipulate front rest output now
    if r.result = .needsWaitUntilTimeStamp then
      ⟨true, { slot with basic := r.basic } :: slots, r.front, r.output⟩
    else
      let p := manipulateAll rest now slots r.front r.output
      { p with slots := { slot with basic := r.basic } :: p.slots }

/-- Run a callback of the manipulator with that serial number. -/
def Slot.fire (serial : ℕ) (f : Basic → Output → Basic × Output) :
    List Slot → Output → List Slot × Output
  | [], output => ([], output)
  | slot :: slots, output =>
    if slot.serial = serial then
      let (b, output) := f slot.basic output
      ({ slot with basic := b } :: slots, output)
    else
      let (slots, output) := fire serial f slots output
      (slot :: slots, output)

/-- A connection: a manager between its input and its output queue.  `processed` are the entries
that have left the input queue, as they were then: the valid ones have been copied to the output
queue. -/
structure Connection where
  input : Queue := {}
  manager : ManipulatorManager := {}
  output : Output
  processed : List Entry := []

namespace Connection

/-- What the `switch` of `manipulate` leaves behind; it waits at `goto finish`. -/
structure Handled where
  waits : Bool
  manager : ManipulatorManager
  front : Entry
  output : Output

/-- The cases of the `switch` in which the manipulators see the entry. -/
def manipulateFront (c : Connection) (front : Entry) (rest : List Entry) (now : AbsoluteTime) :
    Handled :=
  if front.validity = .valid && c.manager.alreadyManipulated front then
    ⟨false, c.manager, { front with validity := .invalid }, c.output⟩
  else
    let p := Slot.manipulateAll rest now c.manager.manipulators front c.output
    ⟨p.waits, { c.manager with manipulators := p.slots }, p.front, p.output⟩

/-- The `switch` on the type of the front event. -/
def handleFront (c : Connection) (front : Entry) (rest : List Entry) (now : AbsoluteTime) :
    Handled :=
  match front.event with
  | .deviceKeysAndPointingButtonsAreReleased =>
    let queue :=
      { c.output.queue with
        modifierFlagManager :=
          c.output.queue.modifierFlagManager.eraseAllActiveModifierFlagsExceptLockAndSticky
            front.deviceId
        pointingButtonManager :=
          c.output.queue.pointingButtonManager.eraseAllActivePointingButtonsExceptLock
            front.deviceId }
    ⟨false, c.manager, front, { c.output with queue := queue }⟩
  | .deviceUngrabbed =>
    let queue :=
      { c.output.queue with
        modifierFlagManager :=
          c.output.queue.modifierFlagManager.eraseAllActiveModifierFlags front.deviceId
        pointingButtonManager :=
          c.output.queue.pointingButtonManager.eraseAllActivePointingButtons front.deviceId }
    ⟨false, c.manager.map fun b => b.handleDeviceUngrabbedEvent front.deviceId, front,
      { c.output with queue := queue }⟩
  | .pointingDeviceEventFromEventTap =>
    ⟨false, c.manager.map fun b => b.handlePointingDeviceEventFromEventTap front, front, c.output⟩
  | .none | .deviceGrabbed _ | .frontmostApplicationChanged _ | .inputSourceChanged _
  | .setVariable _ | .virtualHidDevicesStateChanged _ => ⟨false, c.manager, front, c.output⟩
  | .momentarySwitchEvent _ | .pointingMotion _ | .shellCommand _ | .selectInputSource _
  | .setNotificationMessage _ | .mouseKey _ | .stickyModifier _ _ | .softwareFunction _
  | .stopKeyboardRepeat | .capsLockStateChanged _ | .systemPreferencesPropertiesChanged _ =>
    c.manipulateFront front rest now

/-- Copy the front entry to the output queue if it is still valid. -/
def copyFront (front : Entry) (reorder : Bool) (output : Output) : Output :=
  let output := if front.validity = .valid then output.emplaceBackEntry front else output
  if reorder then { output with queue := output.queue.sortEvents } else output

/-- `manipulator_manager::manipulate`.  `reorder` is the setting
`reorder_same_timestamp_input_events_to_prioritize_modifiers`. -/
def manipulate (c : Connection) (now : AbsoluteTime) (reorder : Bool) : Connection :=
  match c.input.events with
  | [] => { c with manager := c.manager.removeInvalidManipulators }
  | front :: rest =>
    let h := c.handleFront front rest now
    if h.waits then
      { c with
        input := { c.input with events := h.front :: rest }
        manager := h.manager.removeInvalidManipulators
        output := h.output }
    else
      { input := c.input.eraseFrontEvent
        manager := h.manager
        output := copyFront h.front reorder h.output
        processed := c.processed ++ [h.front] }

/-! ### The machine -/

/-- What may happen to a connection. -/
inductive Input
  | arrive (e : Entry)
  | manipulate (now : AbsoluteTime) (reorder : Bool)
  | fireHeldDown (serial heldDownId : ℕ)
  | fireDelayedAction (serial delayedActionId : ℕ)
  | invalidateManipulators
  | pushBackManipulator (d : BasicDefinition)
  /-- Anything else that changes the output queue or the world. -/
  | outside (output : Output)

/-- A timer of the manipulator with that serial number fires. -/
def fire (c : Connection) (serial : ℕ) (f : Basic → Output → Basic × Output) : Connection :=
  let (slots, output) := Slot.fire serial f c.manager.manipulators c.output
  { c with manager.manipulators := slots, output := output }

/-- One step of a connection. -/
def step (c : Connection) : Input → Connection
  | .arrive e =>
    let input := Output.emplaceBackEntry ⟨c.input, c.output.world⟩ e
    { c with input := input.queue, output.world := input.world }
  | .manipulate now reorder => c.manipulate now reorder
  | .fireHeldDown serial id => c.fire serial fun b output => b.fireHeldDown id output
  | .fireDelayedAction serial id => c.fire serial fun b output => b.fireDelayedAction id output
  | .invalidateManipulators => { c with manager := c.manager.invalidateManipulators }
  | .pushBackManipulator d => { c with manager := c.manager.pushBackManipulator d }
  | .outside output => { c with output := output }

/-- A connection with the manipulators of some definitions, before anything has arrived. -/
def initial (definitions : List BasicDefinition) (output : Output) : Connection where
  manager := definitions.foldl ManipulatorManager.pushBackManipulator {}
  output := output

end Connection

end Karabiner
