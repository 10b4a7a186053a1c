import Karabiner.Manipulator.Environment
import Karabiner.ModifierFlagManager
import Karabiner.PointingButtonManager

/-!
# The event queue

`share/event_queue/queue.hpp`.  A queue is a list of entries together with what the entries pushed
so far add up to: the modifier flags, the pointing buttons and the environment.  Pushing an entry
appends exactly that entry, its time stamp moved by the delay of the queue
(`Output.emplaceBackEntry_events`), and updates the rest.
-/

namespace Karabiner

/-- `event_queue::queue`. -/
structure Queue where
  events : List Entry := []
  modifierFlagManager : ModifierFlagManager := {}
  pointingButtonManager : PointingButtonManager := {}
  manipulatorEnvironment : ManipulatorEnvironment := {}
  timeStampDelay : AbsoluteTime := 0

namespace Queue

/-- The entry as `emplace_back_entry` stores it: delayed by the delay of the queue. -/
def delay (q : Queue) (e : Entry) : Entry :=
  { e with eventTimeStamp.timeStamp := e.eventTimeStamp.timeStamp + q.timeStampDelay }

/-- Which way a key_down (or any other event of a key) moves its counter. -/
def activeModifierFlagType : EventType → ActiveModifierFlagType
  | .keyDown => .increase
  | .keyUp | .single => .decrease

/-- The part of `emplace_back_entry` that updates the modifier flags. -/
def updateModifierFlagManager (m : ModifierFlagManager) (e : Entry) : ModifierFlagManager :=
  match e.event with
  | .momentarySwitchEvent s =>
    let m := match s.makeModifierFlag with
      | some flag =>
        m.pushBackActiveModifierFlag (.make (activeModifierFlagType e.eventType) flag e.deviceId)
      | none => m
    -- Erase sticky modifiers
    if e.eventType = .keyDown && e.validity = .valid && !s.modifierFlag then
      m.eraseAllStickyModifierFlags
    else m
  | .stickyModifier flag type =>
    if e.eventType = .keyDown || e.eventType = .single then
      let decrease : Bool := match type with
        | .toggle => m.stickySize flag > 0
        | .on => false
        | .off => true
      m.pushBackActiveModifierFlag
        (.make (if decrease then .decreaseSticky else .increaseSticky) flag e.deviceId)
    else m
  | .capsLockStateChanged state =>
    m.pushBackActiveModifierFlag
      (.make (if state ≠ 0 then .increaseLedLock else .decreaseLedLock) .capsLock e.deviceId)
  | _ => m

/-- The part of `emplace_back_entry` that updates the pointing buttons. -/
def updatePointingButtonManager (m : PointingButtonManager) (e : Entry) : PointingButtonManager :=
  match e.event with
  | .momentarySwitchEvent s =>
    if s.pointingButton then
      m.pushBackActivePointingButton
        ⟨if e.eventType = .keyDown then .increase else .decrease, s.usagePair, e.deviceId⟩
    else m
  | _ => m

variable [Exprtk] [SystemClock]

/-- The assignment of `set_variable`: the value, then the result of the expression, each if it
is there. -/
def assignVariable (env : ManipulatorEnvironment) (w : World) (name : String)
    (value : Option VariableValue) (expression : Option ExpressionWrapper) :
    ManipulatorEnvironment × World :=
  let env := match value with
    | some v => env.setVariable name v
    | none => env
  match expression with
  | none => (env, w)
  | some e =>
    let (env, w) := setVariableSystemNowMilliseconds env w
    let w := w.updateTable e.address env.applyToExpressionVariable
    (env.setVariable name (.integer (Exprtk.toInt64 (w.value e))), w)

/-- The part of `emplace_back_entry` that updates the environment. -/
def updateManipulatorEnvironment (env : ManipulatorEnvironment) (w : World) (e : Entry) :
    ManipulatorEnvironment × World :=
  match e.event with
  | .deviceGrabbed properties =>
    ({ env with deviceProperties := env.deviceProperties.insert e.deviceId properties }, w)
  | .deviceUngrabbed =>
    ({ env with deviceProperties := env.deviceProperties.erase e.deviceId }, w)
  | .frontmostApplicationChanged application =>
    ({ env with frontmostApplication := application }, w)
  | .inputSourceChanged properties => ({ env with inputSourceProperties := properties }, w)
  | .setVariable v =>
    match v.name with
    | none => (env, w)
    | some name =>
      match e.eventType, v.type with
      | .keyDown, .set => assignVariable env w name v.value v.expression
      | .keyDown, .unset => (env.unsetVariable name, w)
      | .keyUp, .set => assignVariable env w name v.keyUpValue v.keyUpExpression
      | .keyUp, .unset | .single, _ => (env, w)
  | .systemPreferencesPropertiesChanged properties =>
    ((env.setVariable "system.use_fkeys_as_standard_function_keys"
        (.boolean properties.useFkeysAsStandardFunctionKeys)).setVariable
      "system.scroll_direction_is_natural" (.boolean properties.scrollDirectionIsNatural), w)
  | .virtualHidDevicesStateChanged state => ({ env with virtualHidDevicesState := state }, w)
  | _ => (env, w)

omit [Exprtk] [SystemClock] in
/-- `erase_front_event`. -/
def eraseFrontEvent (q : Queue) : Queue :=
  { q with
    events := q.events.tail
    timeStampDelay := if q.events.tail.isEmpty then 0 else q.timeStampDelay }

omit [Exprtk] [SystemClock] in
/-- `increase_time_stamp_delay`. -/
def increaseTimeStampDelay (q : Queue) (value : AbsoluteTime) : Queue :=
  { q with timeStampDelay := q.timeStampDelay + value }

end Queue

/-! ### Pushing entries -/

variable [Exprtk] [SystemClock]

/-- A queue that entries are pushed to, with the state of the process that a push may change. -/
structure Output where
  queue : Queue
  world : World

namespace Output

/-- `emplace_back_entry`, whose arguments are the fields of an entry, and `push_back_entry`. -/
def emplaceBackEntry (o : Output) (e : Entry) : Output :=
  let (env, w) := Queue.updateManipulatorEnvironment o.queue.manipulatorEnvironment o.world e
  { queue :=
      { events := o.queue.events ++ [o.queue.delay e]
        modifierFlagManager := Queue.updateModifierFlagManager o.queue.modifierFlagManager e
        pointingButtonManager := Queue.updatePointingButtonManager o.queue.pointingButtonManager e
        manipulatorEnvironment := env
        timeStampDelay := o.queue.timeStampDelay }
    world := w }

@[simp] theorem emplaceBackEntry_events (o : Output) (e : Entry) :
    (o.emplaceBackEntry e).queue.events = o.queue.events ++ [o.queue.delay e] := rfl

@[simp] theorem emplaceBackEntry_timeStampDelay (o : Output) (e : Entry) :
    (o.emplaceBackEntry e).queue.timeStampDelay = o.queue.timeStampDelay := rfl

@[simp] theorem emplaceBackEntry_modifierFlagManager (o : Output) (e : Entry) :
    (o.emplaceBackEntry e).queue.modifierFlagManager =
      Queue.updateModifierFlagManager o.queue.modifierFlagManager e := rfl

end Output

/-! ### `sort_events` -/

namespace Queue

/-- `needs_swap`. -/
def needsSwap (v1 v2 : Entry) : Bool :=
  if v1.eventTimeStamp.timeStamp = v2.eventTimeStamp.timeStamp then
    match v1.event.getMomentarySwitchEvent, v2.event.getMomentarySwitchEvent with
    | some e1, some e2 =>
      if !e1.modifierFlag && e2.modifierFlag then
        -- reorder to v2,v1 if v2 is pressed.
        v2.eventType ≠ .keyUp
      else if e1.modifierFlag && !e2.modifierFlag then
        -- reorder to v2,v1 if v1 is released.
        v1.eventType = .keyUp
      else false
    | _, _ => false
  else false

/-- The loop of `sort_events` from the index `i` on.  A swap steps back by one, if it can. -/
def sortEventsFrom : ℕ → List Entry → ℕ → List Entry
  | 0, events, _ => events
  | fuel + 1, events, i =>
    match events[i]?, events[i + 1]? with
    | some v1, some v2 =>
      if needsSwap v1 v2 then
        sortEventsFrom fuel ((events.set i v2).set (i + 1) v1) (i - 1)
      else sortEventsFrom fuel events (i + 1)
    | _, _ => events

/-- `sort_events`.  A swap removes one of the at most `n * (n - 1) / 2` pairs in the wrong order
and costs one step back, so `n * n` rounds are enough. -/
def sortEvents (q : Queue) : Queue :=
  { q with events := sortEventsFrom (q.events.length * q.events.length) q.events 0 }

end Queue

end Karabiner
