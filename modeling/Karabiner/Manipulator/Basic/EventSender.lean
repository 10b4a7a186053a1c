import Karabiner.EventQueue.Queue
import Karabiner.Manipulator.Basic.FromEventDefinition

/-!
# Posting the events of a rule

`manipulators/basic/manipulated_original_event` and `manipulators/basic/event_sender.hpp`.  A
`manipulated_original_event` is one press of a rule's keys.  Its events are posted while the keys
are held; the key_ups that wait for the release are kept in the press, as `events_at_key_up` and as
the mandatory modifiers that have been released on its behalf.

A press here also records what has been posted on its behalf (`posted`), which no function reads.
-/

namespace Karabiner

/-! ### Manipulated original events -/

/-- `events_at_key_up::entry`. -/
structure EventAtKeyUp where
  deviceId : DeviceId
  event : Event
  eventType : EventType
  originalEvent : Event
  isLazy : Bool

/-- `make_entry`. -/
def EventAtKeyUp.makeEntry (e : EventAtKeyUp) (eventTimeStamp : EventTimeStamp) : Entry where
  deviceId := e.deviceId
  eventTimeStamp := eventTimeStamp
  event := e.event
  eventType := e.eventType
  originalEvent := e.originalEvent
  state := .manipulated
  isLazy := e.isLazy

/-- `manipulated_original_event`. -/
structure ManipulatedOriginalEvent where
  fromEvents : Finset FromEvent
  fromMandatoryModifiers : List ModifierFlag
  keyUpPostedFromMandatoryModifiers : Finset ModifierFlag := ∅
  keyDownTimeStamp : AbsoluteTime
  keyDownModifierFlags : List ModifierFlag
  alone : Bool := true
  halted : Bool := false
  eventsAtKeyUp : List EventAtKeyUp := []
  keyUpPosted : Bool := false
  /-- The entries posted on behalf of the press so far. -/
  posted : List Entry := []

/-! ### Scoped modifier flags -/

namespace ModifierFlagManager

/-- The loop that increases a flag until it is pressed: the manager and the flags it pushed. -/
def increaseUntilPressed (flag : ModifierFlag) : ℕ → ModifierFlagManager →
    List ActiveModifierFlag → ModifierFlagManager × List ActiveModifierFlag
  | 0, m, pushed => (m, pushed)
  | fuel + 1, m, pushed =>
    if m.isPressed flag then (m, pushed)
    else
      let f := ActiveModifierFlag.make .increase flag 0
      increaseUntilPressed flag fuel (m.pushBackActiveModifierFlag f) (pushed ++ [f])

/-- The body of the loop in the constructor of `scoped_modifier_flags`.  Each increase brings the
sum of the flag's entries closer to one, so one more than their number is enough. -/
def scopeModifierFlag (modifierFlags : List ModifierFlag)
    (s : ModifierFlagManager × List ActiveModifierFlag) (flag : ModifierFlag) :
    ModifierFlagManager × List ActiveModifierFlag :=
  if flag ∈ modifierFlags then
    increaseUntilPressed flag (s.1.activeModifierFlags.length + 1) s.1 s.2
  else if s.1.isPressed flag then
    (s.1.activeModifierFlags.filter fun f => f.modifierFlag = flag).foldl
      (fun (m, pushed) f =>
        let inverse := ActiveModifierFlag.make f.inverseType f.modifierFlag 0
        (m.pushBackActiveModifierFlag inverse, pushed ++ [inverse])) s
  else s

/-- The constructor of `scoped_modifier_flags`: the manager with exactly `modifierFlags` pressed,
and the flags pushed for it. -/
def scopedModifierFlags (m : ModifierFlagManager) (modifierFlags : List ModifierFlag) :
    ModifierFlagManager × List ActiveModifierFlag :=
  allModifierFlags.foldl (scopeModifierFlag modifierFlags) (m, [])

/-- `get_inverse_active_modifier_flags`. -/
def inverseActiveModifierFlags (flags : List ActiveModifierFlag) : List ActiveModifierFlag :=
  flags.map fun f => .make f.inverseType f.modifierFlag f.deviceId

end ModifierFlagManager

variable [Exprtk] [SystemClock]

/-! ### Posting -/

/-- `make_lazy_modifier_key_event`.  For `caps_lock` it is a `sticky_modifier` event. -/
def makeLazyModifierKeyEvent (e : MomentarySwitchEvent) (eventType : EventType) :
    Event × EventType :=
  if e.capsLock then
    (.stickyModifier .capsLock (if eventType = .keyDown then .on else .off), .single)
  else (.momentarySwitchEvent e, eventType)

/-- What the functions of `event_sender` share: the current press, the time stamp delay of the
events posted so far and the output queue. -/
structure EventSender where
  current : ManipulatedOriginalEvent
  timeStampDelay : AbsoluteTime := 0
  output : Output

namespace EventSender

/-- Push an entry one time unit after the one before. -/
def post (s : EventSender) (eventTimeStamp : EventTimeStamp) (e : EventAtKeyUp) : EventSender :=
  let entry := e.makeEntry
    { eventTimeStamp with timeStamp := eventTimeStamp.timeStamp + s.timeStampDelay }
  { current := { s.current with posted := s.current.posted ++ [entry] }
    timeStampDelay := s.timeStampDelay + 1
    output := s.output.emplaceBackEntry entry }

/-- `events_at_key_up::emplace_back_event`. -/
def emplaceBackEventAtKeyUp (s : EventSender) (e : EventAtKeyUp) : EventSender :=
  { s with current.eventsAtKeyUp := s.current.eventsAtKeyUp ++ [e] }

/-- The event of a modifier key, as the front event's device posts it. -/
def lazyModifierKeyEvent (front : Entry) (deviceId : DeviceId) (e : MomentarySwitchEvent)
    (eventType : EventType) (isLazy : Bool) : EventAtKeyUp where
  deviceId := deviceId
  event := (makeLazyModifierKeyEvent e eventType).1
  eventType := (makeLazyModifierKeyEvent e eventType).2
  originalEvent := front.originalEvent
  isLazy := isLazy

/-- `post_lazy_modifier_key_event`. -/
def postLazyModifierKeyEvent (front : Entry) (deviceId : DeviceId) (eventType : EventType)
    (isLazy : Bool) (s : EventSender) (e : MomentarySwitchEvent) : EventSender :=
  if e.valid then
    s.post front.eventTimeStamp (lazyModifierKeyEvent front deviceId e eventType isLazy)
  else s

/-- `post_lazy_modifier_key_event` for each of some events. -/
def postLazyModifierKeyEvents (front : Entry) (events : List MomentarySwitchEvent)
    (eventType : EventType) (isLazy : Bool) (s : EventSender) : EventSender :=
  events.foldl (postLazyModifierKeyEvent front front.deviceId eventType isLazy) s

/-- `filter_by_conditions`, which evaluates the conditions of every event. -/
def filterByConditions (front : Entry) : List ToEventDefinition → Output →
    List ToEventDefinition × Output
  | [], o => ([], o)
  | d :: ds, o =>
    let (fulfilled, env, w) :=
      isFulfilled d.conditions front o.queue.manipulatorEnvironment o.world
    let (filtered, o) :=
      filterByConditions front ds
        { queue := { o.queue with manipulatorEnvironment := env }, world := w }
    (if fulfilled then d :: filtered else filtered, o)

/-- `is_last_to_event_modifier_key_event`. -/
def isLastToEventModifierKeyEvent (toEvents : List ToEventDefinition) : Bool :=
  match toEvents.getLast? with
  | some d =>
    match d.eventDefinition with
    | .momentarySwitchEvent e => e.modifierFlag
    | _ => false
  | none => false

/-- `post_from_mandatory_modifiers_key_up`: release the pressed mandatory modifiers. -/
def postFromMandatoryModifiersKeyUp (front : Entry) (s : EventSender) : EventSender :=
  let modifiers := s.current.fromMandatoryModifiers.filter fun m =>
    m ∉ s.current.keyUpPostedFromMandatoryModifiers &&
      s.output.queue.modifierFlagManager.isPressed m
  { s with
    current.keyUpPostedFromMandatoryModifiers :=
      s.current.keyUpPostedFromMandatoryModifiers ∪ modifiers.toFinset }
  |>.postLazyModifierKeyEvents front (modifiers.map .ofModifierFlag) .keyUp true

/-- `post_from_mandatory_modifiers_key_down`: press the released mandatory modifiers again. -/
def postFromMandatoryModifiersKeyDown (front : Entry) (s : EventSender) : EventSender :=
  let modifiers := s.current.fromMandatoryModifiers.filter fun m =>
    m ∈ s.current.keyUpPostedFromMandatoryModifiers
  { s with
    current.keyUpPostedFromMandatoryModifiers :=
      s.current.keyUpPostedFromMandatoryModifiers \ modifiers.toFinset }
  |>.postLazyModifierKeyEvents front (modifiers.map .ofModifierFlag) .keyDown true

/-- Whether `post_events_at_key_down` handles an event as a modifier key. -/
def isModifierKeyEvent : Event → Bool
  | .momentarySwitchEvent e => e.modifierFlag || e.capsLock
  | .mouseKey m => m.isSpeedMultiplier
  | _ => false

/-- The event of a `to` event definition, as the front event's device posts it. -/
def toEvent (front : Entry) (d : ToEventDefinition) (event : Event) (eventType : EventType) :
    EventAtKeyUp where
  deviceId := front.deviceId
  event := event
  eventType := eventType
  originalEvent := front.originalEvent
  isLazy := d.isLazy

/-- `set_halted`, where the event definition asks for it. -/
def haltIf (halt : Bool) (s : EventSender) : EventSender :=
  { s with current.halted := s.current.halted || halt }

section MachTimebase

variable [MachTimebase]

/-- Post the key_down, and halt the press where the event definition asks for it. -/
def postToEvent (front : Entry) (d : ToEventDefinition) (event : Event) (s : EventSender) :
    EventSender :=
  (s.post front.eventTimeStamp (toEvent front d event .keyDown)).haltIf d.halt

/-- Post the key_up after the hold down time. -/
def postToEventKeyUp (front : Entry) (d : ToEventDefinition) (event : Event) (s : EventSender) :
    EventSender :=
  { s with timeStampDelay := s.timeStampDelay + makeAbsoluteTimeDuration d.holdDownMilliseconds }
  |>.post front.eventTimeStamp (toEvent front d event .keyUp)

/-- The body of the loop of `post_events_at_key_down`, for an event definition that has an event:
to_modifier down, to_key down, to_key up, to_modifier up. -/
def postEventAtKeyDown (front : Entry) (d : ToEventDefinition) (event : Event) (isLast : Bool)
    (s : EventSender) : EventSender :=
  let toModifierEvents := d.makeModifierEvents
  -- Unset lazy if event is modifier key event in order to keep modifier keys order.
  let s := s.postLazyModifierKeyEvents front toModifierEvents .keyDown
    (!isModifierKeyEvent event || d.isLazy)
  let s := s.postToEvent front d event
  let s :=
    if !isLast || !d.repeat then s.postToEventKeyUp front d event
    else s.emplaceBackEventAtKeyUp (toEvent front d event .keyUp)
  if isLast && isModifierKeyEvent event then
    toModifierEvents.foldl
      (fun s e => s.emplaceBackEventAtKeyUp
        (lazyModifierKeyEvent front front.deviceId e .keyUp true)) s
  else s.postLazyModifierKeyEvents front toModifierEvents .keyUp true

/-- The loop of `post_events_at_key_down`. -/
def postEventsAtKeyDownLoop (front : Entry) : List ToEventDefinition → EventSender → EventSender
  | [], s => s
  | d :: ds, s =>
    match d.eventDefinition.toEvent with
    | some event => postEventsAtKeyDownLoop front ds (s.postEventAtKeyDown front d event ds.isEmpty)
    | none => postEventsAtKeyDownLoop front ds s

/-- `post_events_at_key_down`. -/
def postEventsAtKeyDown (front : Entry) (toEvents : List ToEventDefinition) (s : EventSender) :
    EventSender :=
  if s.current.halted then s
  else
    let (filtered, output) := filterByConditions front toEvents s.output
    postEventsAtKeyDownLoop front filtered { s with output := output }

omit [MachTimebase] in
/-- `post_events_at_key_up`. -/
def postEventsAtKeyUp (front : Entry) (s : EventSender) : EventSender :=
  let s := s.current.eventsAtKeyUp.foldl (fun s e => s.post front.eventTimeStamp e) s
  { s with current.eventsAtKeyUp := [] }

/-- The body of the loop of `post_extra_to_events`, for an event definition that has an event. -/
def postExtraToEvent (front : Entry) (d : ToEventDefinition) (event : Event) (s : EventSender) :
    EventSender :=
  s.postLazyModifierKeyEvents front d.makeModifierEvents .keyDown true
  |>.postToEvent front d event
  |>.postToEventKeyUp front d event
  |>.postLazyModifierKeyEvents front d.makeModifierEvents .keyUp true

/-- The loop of `post_extra_to_events`. -/
def postExtraToEventsLoop (front : Entry) (toEvents : List ToEventDefinition) (s : EventSender) :
    EventSender :=
  toEvents.foldl
    (fun s d =>
      match d.eventDefinition.toEvent with
      | some event => s.postExtraToEvent front d event
      | none => s) s

/-- `post_extra_to_events`. -/
def postExtraToEvents (front : Entry) (toEvents : List ToEventDefinition) (s : EventSender) :
    EventSender :=
  if s.current.halted then s
  else
    let (filtered, output) := filterByConditions front toEvents s.output
    postExtraToEventsLoop front filtered { s with output := output }

end MachTimebase

/-- `post_active_modifier_flags`. -/
def postActiveModifierFlags (front : Entry) (flags : List ActiveModifierFlag) (s : EventSender) :
    EventSender :=
  flags.foldl
    (fun s f =>
      s.postLazyModifierKeyEvent front f.deviceId (if f.count > 0 then .keyDown else .keyUp) true
        (.ofModifierFlag f.modifierFlag)) s

/-- The scope of a `scoped_from_key_modifier_flags_state_restorer`.  The inner
`scoped_modifier_flags` only computes which flags to post: its destructor pushes their inverses
before they are posted. -/
def scopedFromKeyModifierFlagsState (front : Entry) (body : EventSender → EventSender)
    (s : EventSender) : EventSender :=
  let (manager, flags) :=
    s.output.queue.modifierFlagManager.scopedModifierFlags s.current.keyDownModifierFlags
  let inverse := ModifierFlagManager.inverseActiveModifierFlags flags
  { s with
    output.queue.modifierFlagManager :=
      inverse.foldl ModifierFlagManager.pushBackActiveModifierFlag manager }
  |>.postActiveModifierFlags front flags
  |> body
  |>.postActiveModifierFlags front inverse

end EventSender

end Karabiner
