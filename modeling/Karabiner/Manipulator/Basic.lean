import Karabiner.Manipulator.Basic.EventSender

/-!
# The basic manipulator

`manipulators/basic/basic.hpp`, `to_if_held_down.hpp` and `to_delayed_action.hpp`: the state machine
of one rule.

The presses a manipulator has created are objects that the source shares by pointers: the list
`manipulated_original_events_`, a weak pointer in `to_if_held_down` and a shared one in
`to_delayed_action`.  Here an object keeps its index in `objects` for good, a pointer is an index,
and a weak pointer can be locked while the list or the shared pointer still has the index
(`Basic.alive`).

* `Basic.manipulate` — one entry of the input queue; `Basic.Manipulates` — its cases.
* `Basic.fireHeldDown`, `Basic.fireDelayedAction` — a timer that fires.  A timer is an entry of a
  `pending` list with the id its callback has captured; when it fires is up to the caller.
-/

namespace Karabiner

/-! ### Definitions -/

/-- `complex_modifications_parameters`, as its `adjust_values` leaves it.  The two parameters that
only say when a timer fires are left out. -/
structure ComplexModificationsParameters where
  basicSimultaneousThresholdMilliseconds : ℤ
  basicToIfAloneTimeoutMilliseconds : ℤ
  threshold_nonneg : 0 ≤ basicSimultaneousThresholdMilliseconds
  threshold_le : basicSimultaneousThresholdMilliseconds ≤ 1000
  timeout_nonneg : 0 ≤ basicToIfAloneTimeoutMilliseconds

namespace ComplexModificationsParameters

/-- `adjust_values`. -/
def adjustValues (threshold timeout : ℤ) : ComplexModificationsParameters where
  basicSimultaneousThresholdMilliseconds := min (max threshold 0) 1000
  basicToIfAloneTimeoutMilliseconds := max timeout 0
  threshold_nonneg := le_min (le_max_right _ _) (by decide)
  threshold_le := min_le_right _ _
  timeout_nonneg := le_max_right _ _

/-- The default constructor. -/
def default : ComplexModificationsParameters := adjustValues 50 1000

end ComplexModificationsParameters

/-- The lists of a `to_delayed_action`. -/
structure ToDelayedAction where
  toIfInvoked : List ToEventDefinition := []
  toIfCanceled : List ToEventDefinition := []

/-- What a `basic` is constructed from. -/
structure BasicDefinition where
  parameters : ComplexModificationsParameters := .default
  from_ : FromEventDefinition
  to_ : List ToEventDefinition := []
  toAfterKeyUp : List ToEventDefinition := []
  toIfAlone : List ToEventDefinition := []
  toIfHeldDown : Option (List ToEventDefinition) := none
  toDelayedAction : Option ToDelayedAction := none
  conditions : List Condition := []

/-- The state of a `to_if_held_down` or a `to_delayed_action`: the entry and the press of the last
setup, the current id, and the ids of the callbacks in the dispatcher. -/
structure TimerState where
  frontInputEvent : Option Entry := none
  currentManipulatedOriginalEvent : Option ℕ := none
  currentId : ℕ := 0
  pending : List ℕ := []

/-- `basic`. -/
structure Basic where
  definition : BasicDefinition
  validity : Validity := .valid
  objects : List ManipulatedOriginalEvent := []
  manipulatedOriginalEvents : List ℕ := []
  toIfHeldDown : TimerState := {}
  toDelayedAction : TimerState := {}

variable [Exprtk] [SystemClock] [MachTimebase]

namespace FromEventDefinition

/-! ### Detection -/

/-- What the scan of the input queue finds if the front event is a target: the from events, and
whether to wait for a key_up (`needs_wait_key_up`). -/
def detect (d : FromEventDefinition) (endTimeStamp : AbsoluteTime) (entries : List Entry) :
    Option (Finset FromEvent × Bool) :=
  match scan d endTimeStamp entries {} with
  | none => none
  | some s =>
    let options := d.simultaneousOptions
    if s.fromEvents = ∅ then none
    else if !testKeyOrder s.orderedKeyDownEvents options.keyDownOrder d.eventDefinitions then none
    else if options.keyUpOrder = .insensitive then some (s.fromEvents, false)
    else if !testKeyOrder s.orderedKeyUpEvents options.keyUpOrder d.eventDefinitions then none
    else some (s.fromEvents, s.orderedKeyUpEvents.length < d.eventDefinitions.length - 1)

end FromEventDefinition

namespace BasicDefinition

/-- `simultaneous_threshold_milliseconds` as a duration. -/
def simultaneousThreshold (d : BasicDefinition) : AbsoluteTime :=
  makeAbsoluteTimeDuration d.parameters.basicSimultaneousThresholdMilliseconds

/-! ### What is posted at a key_down and a key_up -/

/-- Post `to` events at a key_down, in place of the mandatory modifiers. -/
def postTo (front : Entry) (toEvents : List ToEventDefinition) (s : EventSender) : EventSender :=
  let s := (s.postFromMandatoryModifiersKeyUp front).postEventsAtKeyDown front toEvents
  if EventSender.isLastToEventModifierKeyEvent toEvents then s
  else s.postFromMandatoryModifiersKeyDown front

/-- Post extra `to` events, without the mandatory modifiers. -/
def postExtra (front : Entry) (toEvents : List ToEventDefinition) (s : EventSender) :
    EventSender :=
  s.postFromMandatoryModifiersKeyUp front
  |>.postExtraToEvents front toEvents
  |>.postFromMandatoryModifiersKeyDown front

/-- The events of `to_if_alone`. -/
def postToIfAlone (d : BasicDefinition) (front : Entry) (s : EventSender) : EventSender :=
  let duration :=
    makeMilliseconds (front.eventTimeStamp.timeStamp - s.current.keyDownTimeStamp)
  if !d.toIfAlone.isEmpty && s.current.alone &&
      duration < d.parameters.basicToIfAloneTimeoutMilliseconds then
    s.scopedFromKeyModifierFlagsState front (postExtra front d.toIfAlone)
  else s

/-- `postExtra`, unless there is nothing to post. -/
def postExtraIfAny (front : Entry) (toEvents : List ToEventDefinition) (s : EventSender) :
    EventSender :=
  if toEvents.isEmpty then s else postExtra front toEvents s

/-- What the first key_up that is not skipped posts. -/
def postKeyUpOnce (d : BasicDefinition) (front : Entry) (s : EventSender) : EventSender :=
  { s with current.keyUpPosted := true }
  |>.postEventsAtKeyUp front
  |>.postFromMandatoryModifiersKeyDown front
  |> d.postToIfAlone front
  |> postExtraIfAny front d.toAfterKeyUp

/-- What a key_up posts. -/
def postKeyUp (d : BasicDefinition) (front : Entry) (s : EventSender) : EventSender :=
  let options := d.from_.simultaneousOptions
  if options.keyUpWhen = .all && s.current.fromEvents ≠ ∅ then s
  else
    let s := if s.current.keyUpPosted then s else d.postKeyUpOnce front s
    if s.current.fromEvents = ∅ then postExtraIfAny front options.toAfterKeyUp s else s

/-- What the callback of `to_if_held_down` posts. -/
def postHeldDown (front : Entry) (toEvents : List ToEventDefinition) (s : EventSender) :
    EventSender :=
  s.postEventsAtKeyUp front
  |>.postFromMandatoryModifiersKeyDown front
  |> postTo front toEvents

/-- What `to_delayed_action` posts. -/
def postDelayedAction (front : Entry) (toEvents : List ToEventDefinition) (s : EventSender) :
    EventSender :=
  s.scopedFromKeyModifierFlagsState front fun s =>
    let modifiers := s.current.fromMandatoryModifiers.map .ofModifierFlag
    s.postLazyModifierKeyEvents front modifiers .keyUp true
    |>.postExtraToEvents front toEvents
    |>.postLazyModifierKeyEvents front modifiers .keyDown true

end BasicDefinition

namespace Basic

/-! ### Objects -/

/-- A weak pointer to the object can be locked. -/
def alive (b : Basic) (id : ℕ) : Bool :=
  id ∈ b.manipulatedOriginalEvents || b.toDelayedAction.currentManipulatedOriginalEvent = some id

/-- Change the objects in the list `manipulated_original_events_`. -/
def mapObjects (b : Basic) (f : ManipulatedOriginalEvent → ManipulatedOriginalEvent) : Basic :=
  { b with
    objects := b.objects.mapIdx fun id m => if id ∈ b.manipulatedOriginalEvents then f m else m }

/-- Post on behalf of an object: what becomes of it, of the output queue, and the time stamp
delay. -/
def send (b : Basic) (id : ℕ) (output : Output) (f : EventSender → EventSender) :
    Basic × Output × AbsoluteTime :=
  match b.objects[id]? with
  | none => (b, output, 0)
  | some m =>
    let s := f { current := m, output := output }
    ({ b with objects := b.objects.set id s.current }, s.output, s.timeStampDelay)

/-- The object has the from event (`from_event_exists`). -/
def fromEventExists (b : Basic) (fe : FromEvent) (id : ℕ) : Bool :=
  match b.objects[id]? with
  | none => false
  | some m => fe ∈ m.fromEvents

/-- `already_manipulated`: skip if the key_down event is already manipulated by `simultaneous`. -/
def alreadyManipulated (b : Basic) (front : Entry) : Bool :=
  front.eventType = .keyDown && b.manipulatedOriginalEvents.any (b.fromEventExists front.fromEvent)

/-- `active`. -/
def active (b : Basic) : Bool := !b.manipulatedOriginalEvents.isEmpty

/-- The condition of `unset_alone_if_needed`. -/
def unsetsAlone (event : Event) (eventType : EventType) : Bool :=
  match event with
  | .momentarySwitchEvent _ => eventType = .keyDown
  | .pointingMotion m => m.verticalWheel ≠ 0 || m.horizontalWheel ≠ 0
  | _ => false

/-- `unset_alone_if_needed`. -/
def unsetAloneIfNeeded (b : Basic) (event : Event) (eventType : EventType) : Basic :=
  if unsetsAlone event eventType then b.mapObjects fun m => { m with alone := false } else b

/-! ### Timers -/

/-- `to_if_held_down::cancel`. -/
def cancelHeldDown (b : Basic) (front : Entry) : Basic :=
  if b.definition.toIfHeldDown.isSome && front.eventType = .keyDown then
    { b with toIfHeldDown.currentId := b.toIfHeldDown.currentId + 1 }
  else b

/-- `to_if_held_down::setup`. -/
def setupHeldDown (b : Basic) (front : Entry) (id : ℕ) : Basic :=
  match b.definition.toIfHeldDown with
  | none => b
  | some toEvents =>
    let currentId := b.toIfHeldDown.currentId + 1
    if front.eventType ≠ .keyDown || toEvents.isEmpty then
      { b with toIfHeldDown.currentId := currentId }
    else
      { b with
        toIfHeldDown :=
          { frontInputEvent := some front
            currentManipulatedOriginalEvent := some id
            currentId := currentId
            pending := b.toIfHeldDown.pending ++ [currentId] } }

/-- The callback of `to_if_held_down`, with the id it has captured. -/
def fireHeldDown (b : Basic) (heldDownId : ℕ) (output : Output) : Basic × Output :=
  if heldDownId ∈ b.toIfHeldDown.pending then
    let b := { b with toIfHeldDown.pending := b.toIfHeldDown.pending.erase heldDownId }
    if b.toIfHeldDown.currentId ≠ heldDownId then (b, output)
    else
      match b.definition.toIfHeldDown, b.toIfHeldDown.frontInputEvent,
        b.toIfHeldDown.currentManipulatedOriginalEvent with
      | some toEvents, some front, some id =>
        if b.alive id then
          let (b, output, _) := b.send id output (BasicDefinition.postHeldDown front toEvents)
          (b, output)
        else (b, output)
      | _, _, _ => (b, output)
  else (b, output)

/-- `to_delayed_action::post_events`. -/
def postDelayedEvents (b : Basic) (events : List ToEventDefinition) (output : Output) :
    Basic × Output :=
  let (b, output) :=
    match b.toDelayedAction.frontInputEvent,
      b.toDelayedAction.currentManipulatedOriginalEvent with
    | some front, some id =>
      let (b, output, _) := b.send id output (BasicDefinition.postDelayedAction front events)
      (b, output)
    | _, _ => (b, output)
  ({ b with toDelayedAction.currentManipulatedOriginalEvent := none }, output)

/-- `to_delayed_action::cancel`. -/
def cancelDelayedAction (b : Basic) (front : Entry) (output : Output) : Basic × Output :=
  match b.definition.toDelayedAction with
  | none => (b, output)
  | some action =>
    if front.eventType = .keyDown then
      let b := { b with toDelayedAction.currentId := b.toDelayedAction.currentId + 1 }
      b.postDelayedEvents action.toIfCanceled output
    else (b, output)

/-- `to_delayed_action::setup`. -/
def setupDelayedAction (b : Basic) (front : Entry) (id : ℕ) : Basic :=
  match b.definition.toDelayedAction with
  | none => b
  | some action =>
    if front.eventType ≠ .keyDown ||
        (action.toIfInvoked.isEmpty && action.toIfCanceled.isEmpty) then b
    else
      let currentId := b.toDelayedAction.currentId + 1
      { b with
        toDelayedAction :=
          { frontInputEvent := some front
            currentManipulatedOriginalEvent := some id
            currentId := currentId
            pending := b.toDelayedAction.pending ++ [currentId] } }

/-- The callback of `to_delayed_action`, with the id it has captured. -/
def fireDelayedAction (b : Basic) (delayedActionId : ℕ) (output : Output) : Basic × Output :=
  if delayedActionId ∈ b.toDelayedAction.pending then
    let b := { b with toDelayedAction.pending := b.toDelayedAction.pending.erase delayedActionId }
    if b.toDelayedAction.currentId ≠ delayedActionId then (b, output)
    else
      match b.definition.toDelayedAction with
      | none => (b, output)
      | some action => b.postDelayedEvents action.toIfInvoked output
  else (b, output)

/-! ### `manipulate` -/

/-- What `manipulate` returns and leaves behind: the manipulator, the front entry of the input queue
and the output queue. -/
structure Manipulated where
  result : ManipulateResult
  basic : Basic
  front : Entry
  output : Output

/-- The end of `manipulate`: consume the front entry, post the events of the press and set the
timers up. -/
def finish (b : Basic) (front : Entry) (id : ℕ) (f : Entry → EventSender → EventSender)
    (output : Output) : Manipulated :=
  let front := { front with validity := .invalid }
  let (b, output, timeStampDelay) := b.send id output (f front)
  { result := .manipulated
    basic := (b.setupHeldDown front id).setupDelayedAction front id
    front := front
    output :=
      if timeStampDelay > 0 then
        { output with queue := output.queue.increaseTimeStampDelay (timeStampDelay - 1) }
      else output }

/-- Add a new object to the list `manipulated_original_events_`. -/
def pushBack (b : Basic) (m : ManipulatedOriginalEvent) : Basic :=
  { b with
    objects := b.objects ++ [m]
    manipulatedOriginalEvents := b.manipulatedOriginalEvents ++ [b.objects.length] }

/-- Add a `manipulated_original_event` and post its `to` events. -/
def capture (b : Basic) (front : Entry) (fromEvents : Finset FromEvent)
    (fromMandatoryModifiers : List ModifierFlag) (output : Output) : Manipulated :=
  let current : ManipulatedOriginalEvent :=
    { fromEvents := fromEvents
      fromMandatoryModifiers := fromMandatoryModifiers
      keyDownTimeStamp := front.eventTimeStamp.timeStamp
      keyDownModifierFlags := output.queue.modifierFlagManager.makeModifierFlags }
  (b.pushBack current).finish front b.objects.length
    (fun front => BasicDefinition.postTo front b.definition.to_) output

/-- The front entry with the input delay that a `simultaneous` target needs. -/
def delayInput (b : Basic) (front : Entry) : Entry :=
  { front with
    eventTimeStamp.inputDelayDuration :=
      max front.eventTimeStamp.inputDelayDuration b.definition.simultaneousThreshold }

/-- The entry that stops the keyboard repeat while an entry waits. -/
def stopKeyboardRepeatEntry (front : Entry) : Entry where
  deviceId := front.deviceId
  eventTimeStamp := front.eventTimeStamp
  event := .stopKeyboardRepeat
  eventType := .single
  originalEvent := front.originalEvent
  state := .virtualEvent
  isLazy := true

/-- The key_down case after the modifiers and the conditions: look for the other keys in the input
queue, and wait for them if they may still arrive. -/
def manipulateDetected (b : Basic) (front : Entry) (rest : List Entry)
    (fromMandatoryModifiers : List ModifierFlag) (output : Output) (now : AbsoluteTime) :
    Manipulated :=
  let endTimeStamp := front.eventTimeStamp.timeStamp + b.definition.simultaneousThreshold
  match b.definition.from_.detect endTimeStamp (front :: rest) with
  | none => ⟨.passed, b, front, output⟩
  | some (fromEvents, needsWaitKeyUp) =>
    let found := b.definition.from_.allFromEventsFound fromEvents
    if needsWaitKeyUp || !found then
      let front := b.delayInput front
      if now < front.eventTimeStamp.makeTimeStampWithInputDelay then
        ⟨.needsWaitUntilTimeStamp, b, front,
          output.emplaceBackEntry (stopKeyboardRepeatEntry front)⟩
      else if !found then ⟨.passed, b, front, output⟩
      else b.capture front fromEvents fromMandatoryModifiers output
    else b.capture front fromEvents fromMandatoryModifiers output

/-- The key_down case. -/
def manipulateKeyDown (b : Basic) (front : Entry) (rest : List Entry) (output : Output)
    (now : AbsoluteTime) : Manipulated :=
  if b.validity = .invalid then ⟨.passed, b, front, output⟩
  else
    match b.definition.from_.fromModifiersDefinition.testModifiers
      output.queue.modifierFlagManager with
    | none => ⟨.passed, b, front, output⟩
    | some fromMandatoryModifiers =>
      let (fulfilled, env, w) :=
        isFulfilled b.definition.conditions front output.queue.manipulatorEnvironment output.world
      let output := { queue := { output.queue with manipulatorEnvironment := env }, world := w }
      if !fulfilled then ⟨.passed, b, front, output⟩
      else b.manipulateDetected front rest fromMandatoryModifiers output now

/-- Erase a from event of an object, and the object from the list when it was the last. -/
def eraseFromEvent (b : Basic) (id : ℕ) (fe : FromEvent) : Basic :=
  match b.objects[id]? with
  | none => b
  | some m =>
    let m := { m with fromEvents := m.fromEvents.erase fe }
    { b with
      objects := b.objects.set id m
      manipulatedOriginalEvents :=
        if m.fromEvents = ∅ then b.manipulatedOriginalEvents.erase id
        else b.manipulatedOriginalEvents }

/-- The key_up case: the original event determines whether the corresponding key_down is
manipulated. -/
def manipulateKeyUp (b : Basic) (front : Entry) (output : Output) : Manipulated :=
  match b.manipulatedOriginalEvents.find? (b.fromEventExists front.fromEvent) with
  | none => ⟨.passed, b, front, output⟩
  | some id =>
    (b.eraseFromEvent id front.fromEvent).finish front id b.definition.postKeyUp output

/-- What `manipulate` does for every entry, also one that is no target. -/
def observe (b : Basic) (front : Entry) (output : Output) : Basic × Output :=
  ((b.unsetAloneIfNeeded front.event front.eventType).cancelHeldDown front).cancelDelayedAction
    front output

/-- `manipulate`. -/
def manipulate (b : Basic) (front : Entry) (rest : List Entry) (output : Output)
    (now : AbsoluteTime) : Manipulated :=
  let (b, output) := b.observe front output
  if front.validity = .invalid || !b.definition.from_.testEvent front.event then
    ⟨.passed, b, front, output⟩
  else
    match front.eventType with
    | .keyDown => b.manipulateKeyDown front rest output now
    | .keyUp => b.manipulateKeyUp front output
    | .single => ⟨.passed, b, front, output⟩

/-! ### The cases of the timers -/

/-- What the callback of `to_if_held_down` does: nothing when it has been cancelled, nothing but to
be over when there is nothing to post for, and else it posts for a press that it can lock. -/
inductive FiresHeldDown (b : Basic) (heldDownId : ℕ) (o : Output) : Basic × Output → Prop
  | cancelled : FiresHeldDown b heldDownId o (b, o)
  | idle : FiresHeldDown b heldDownId o
      ({ b with toIfHeldDown.pending := b.toIfHeldDown.pending.erase heldDownId }, o)
  | posts {b₁ : Basic} {toEvents : List ToEventDefinition} {front : Entry} {id : ℕ}
      (erased : b₁ = { b with toIfHeldDown.pending := b.toIfHeldDown.pending.erase heldDownId })
      (definition : b.definition.toIfHeldDown = some toEvents)
      (pending : heldDownId ∈ b.toIfHeldDown.pending)
      (current : b.toIfHeldDown.currentId = heldDownId)
      (frontInputEvent : b.toIfHeldDown.frontInputEvent = some front)
      (press : b.toIfHeldDown.currentManipulatedOriginalEvent = some id)
      (alive : b.alive id = true) :
      FiresHeldDown b heldDownId o
        ((b₁.send id o (BasicDefinition.postHeldDown front toEvents)).1,
          (b₁.send id o (BasicDefinition.postHeldDown front toEvents)).2.1)

theorem firesHeldDown (b : Basic) (heldDownId : ℕ) (o : Output) :
    FiresHeldDown b heldDownId o (b.fireHeldDown heldDownId o) := by
  unfold fireHeldDown
  split_ifs with hpending
  · dsimp only
    split_ifs with hcurrent
    · exact .idle
    · split
      · next toEvents front id hdefinition hfront hpress =>
          split_ifs with halive
          · exact .posts rfl hdefinition hpending (not_not.mp hcurrent) hfront hpress halive
          · exact .idle
      · exact .idle
  · exact .cancelled

/-- What the callback of `to_delayed_action` does. -/
inductive FiresDelayedAction (b : Basic) (delayedActionId : ℕ) (o : Output) : Basic × Output → Prop
  | cancelled (pending : delayedActionId ∉ b.toDelayedAction.pending) :
      FiresDelayedAction b delayedActionId o (b, o)
  | idle (idle : b.definition.toDelayedAction = none ∨
        b.toDelayedAction.currentId ≠ delayedActionId) :
      FiresDelayedAction b delayedActionId o
        ({ b with toDelayedAction.pending := b.toDelayedAction.pending.erase delayedActionId }, o)
  | posts {b₁ : Basic} {action : ToDelayedAction}
      (erased : b₁ =
        { b with toDelayedAction.pending := b.toDelayedAction.pending.erase delayedActionId })
      (definition : b.definition.toDelayedAction = some action)
      (pending : delayedActionId ∈ b.toDelayedAction.pending)
      (current : b.toDelayedAction.currentId = delayedActionId) :
      FiresDelayedAction b delayedActionId o (b₁.postDelayedEvents action.toIfInvoked o)

theorem firesDelayedAction (b : Basic) (delayedActionId : ℕ) (o : Output) :
    FiresDelayedAction b delayedActionId o (b.fireDelayedAction delayedActionId o) := by
  unfold fireDelayedAction
  split_ifs with hpending
  · dsimp only
    split_ifs with hcurrent
    · exact .idle (.inr hcurrent)
    · split
      · next hdefinition => exact .idle (.inl hdefinition)
      · next action hdefinition => exact .posts rfl hdefinition hpending (not_not.mp hcurrent)
  · exact .cancelled hpending

/-- What an entry does to a delayed action: a key_down cancels it, if there is one. -/
inductive CancelsDelayedAction (b : Basic) (front : Entry) (o : Output) : Basic × Output → Prop
  | idle (idle : b.definition.toDelayedAction = none ∨ front.eventType ≠ .keyDown) :
      CancelsDelayedAction b front o (b, o)
  | posts {b₁ : Basic} {action : ToDelayedAction}
      (next : b₁ = { b with toDelayedAction.currentId := b.toDelayedAction.currentId + 1 })
      (definition : b.definition.toDelayedAction = some action)
      (down : front.eventType = .keyDown) :
      CancelsDelayedAction b front o (b₁.postDelayedEvents action.toIfCanceled o)

theorem cancelsDelayedAction (b : Basic) (front : Entry) (o : Output) :
    CancelsDelayedAction b front o (b.cancelDelayedAction front o) := by
  unfold cancelDelayedAction
  split
  · next hdefinition => exact .idle (.inl hdefinition)
  · next action hdefinition =>
      split_ifs with hdown
      · exact .posts rfl hdefinition hdown
      · exact .idle (.inr hdown)

/-! ### The cases of `manipulate` -/

/-- Evaluating conditions changes no entry. -/
structure SameEntries (o o' : Output) : Prop where
  events : o'.queue.events = o.queue.events
  timeStampDelay : o'.queue.timeStampDelay = o.queue.timeStampDelay

/-- What `manipulate` does with the front entry after the cancellation: it passes, it waits, it
captures the entry, or it releases a from event of a press. -/
inductive Manipulates (b : Basic) (front : Entry) (rest : List Entry) (o : Output)
    (now : AbsoluteTime) : Manipulated → Prop
  | passed {front' : Entry} {o' : Output} (delayed : front' = front ∨ front' = b.delayInput front)
      (same : SameEntries o o')
      (unheld : front.validity = .valid → front.eventType = .keyUp →
        b.definition.from_.testEvent front.event = true →
          b.manipulatedOriginalEvents.find? (b.fromEventExists front.fromEvent) = none) :
      Manipulates b front rest o now ⟨.passed, b, front', o'⟩
  | waits {o' : Output} (same : SameEntries o o') (valid : front.validity = .valid)
      (down : front.eventType = .keyDown)
      (early : now < (b.delayInput front).eventTimeStamp.makeTimeStampWithInputDelay) :
      Manipulates b front rest o now ⟨.needsWaitUntilTimeStamp, b, b.delayInput front,
        o'.emplaceBackEntry (stopKeyboardRepeatEntry (b.delayInput front))⟩
  | captured {front' : Entry} {fromEvents : Finset FromEvent} {needsWaitKeyUp : Bool}
      {fromMandatoryModifiers : List ModifierFlag} {o' : Output}
      (delayed : front' = front ∨ front' = b.delayInput front) (same : SameEntries o o')
      (valid : front.validity = .valid) (down : front.eventType = .keyDown)
      (target : b.definition.from_.testEvent front.event = true) (enabled : b.validity = .valid)
      (detect : b.definition.from_.detect
        (front.eventTimeStamp.timeStamp + b.definition.simultaneousThreshold) (front :: rest) =
          some (fromEvents, needsWaitKeyUp)) :
      Manipulates b front rest o now (b.capture front' fromEvents fromMandatoryModifiers o')
  | released {id : ℕ} (valid : front.validity = .valid) (up : front.eventType = .keyUp)
      (target : b.definition.from_.testEvent front.event = true)
      (find : b.manipulatedOriginalEvents.find? (b.fromEventExists front.fromEvent) = some id) :
      Manipulates b front rest o now
        ((b.eraseFromEvent id front.fromEvent).finish front id b.definition.postKeyUp o)

omit [Exprtk] [SystemClock] in
/-- Only the input delay of an entry changes until it is consumed. -/
theorem exists_inputDelay {b : Basic} {front front' : Entry}
    (h : front' = front ∨ front' = b.delayInput front) :
    ∃ d, front' = { front with eventTimeStamp.inputDelayDuration := d } := by
  rcases h with rfl | rfl
  · exact ⟨front'.eventTimeStamp.inputDelayDuration, rfl⟩
  · exact ⟨_, rfl⟩

theorem manipulates_manipulateDetected (b : Basic) {front : Entry} (rest : List Entry)
    (fromMandatoryModifiers : List ModifierFlag) {o o' : Output} (same : SameEntries o o')
    (now : AbsoluteTime) (valid : front.validity = .valid) (down : front.eventType = .keyDown)
    (target : b.definition.from_.testEvent front.event = true) (enabled : b.validity = .valid) :
    Manipulates b front rest o now
      (b.manipulateDetected front rest fromMandatoryModifiers o' now) := by
  have hdown : ¬front.eventType = .keyUp := by simp [down]
  unfold manipulateDetected
  dsimp only
  split
  next => exact .passed (.inl rfl) same fun _ up => absurd up hdown
  next fromEvents needsWaitKeyUp hdetect =>
      split_ifs with _ hearly
      · exact .waits same valid down hearly
      · exact .passed (.inr rfl) same fun _ up => absurd up hdown
      · exact .captured (.inr rfl) same valid down target enabled hdetect
      · exact .captured (.inl rfl) same valid down target enabled hdetect

theorem manipulates_manipulateKeyDown (b : Basic) {front : Entry} (rest : List Entry) (o : Output)
    (now : AbsoluteTime) (valid : front.validity = .valid) (down : front.eventType = .keyDown)
    (target : b.definition.from_.testEvent front.event = true) :
    Manipulates b front rest o now (b.manipulateKeyDown front rest o now) := by
  have hpass {o' : Output} (same : SameEntries o o') :
      Manipulates b front rest o now ⟨.passed, b, front, o'⟩ :=
    .passed (.inl rfl) same fun _ up => absurd (down.symm.trans up) (by decide)
  unfold manipulateKeyDown
  dsimp only
  cases hvalidity : b.validity with
  | invalid =>
      rw [if_pos rfl]
      exact hpass ⟨rfl, rfl⟩
  | valid =>
      rw [if_neg (by decide)]
      split
      next => exact hpass ⟨rfl, rfl⟩
      next fromMandatoryModifiers _ =>
          by_cases hfulfilled : (isFulfilled b.definition.conditions front
              o.queue.manipulatorEnvironment o.world).1 = true
          · rw [if_neg (by simp [hfulfilled])]
            refine manipulates_manipulateDetected b rest fromMandatoryModifiers ?_ now valid down
              target hvalidity
            exact ⟨rfl, rfl⟩
          · rw [if_pos (by simp [hfulfilled])]
            exact hpass ⟨rfl, rfl⟩

/-- **The cases of `manipulate`**, after the cancellation that every entry gets. -/
theorem manipulates_manipulate (b : Basic) (front : Entry) (rest : List Entry) (o : Output)
    (now : AbsoluteTime) :
    Manipulates (b.observe front o).1 front rest (b.observe front o).2 now
      (b.manipulate front rest o now) := by
  unfold manipulate
  generalize b.observe front o = observed
  obtain ⟨b₁, o₁⟩ := observed
  dsimp only
  by_cases hskip : (decide (front.validity = .invalid) ||
      !b₁.definition.from_.testEvent front.event) = true
  · rw [if_pos hskip]
    refine .passed (.inl rfl) ⟨rfl, rfl⟩ fun valid _ target => ?_
    simp [valid, target] at hskip
  · rw [if_neg hskip]
    simp only [Bool.or_eq_true, decide_eq_true_eq, Bool.not_eq_true', not_or,
      Bool.not_eq_false] at hskip
    obtain ⟨hvalidity, target⟩ := hskip
    have valid : front.validity = .valid := by
      cases h : front.validity with
      | valid => rfl
      | invalid => exact absurd h hvalidity
    cases htype : front.eventType with
    | keyDown => exact b₁.manipulates_manipulateKeyDown rest o₁ now valid htype target
    | keyUp =>
        dsimp only
        unfold manipulateKeyUp
        split
        next hfind => exact .passed (.inl rfl) ⟨rfl, rfl⟩ fun _ _ _ => hfind
        next id hfind => exact .released valid htype target hfind
    | single =>
        exact .passed (.inl rfl) ⟨rfl, rfl⟩ fun _ up => absurd (htype.symm.trans up) (by decide)

/-! ### Other events -/

/-- `handle_device_ungrabbed_event`. -/
def handleDeviceUngrabbedEvent (b : Basic) (deviceId : DeviceId) : Basic :=
  let b := b.mapObjects fun m =>
    { m with fromEvents := m.fromEvents.filter fun fe => fe.deviceId ≠ deviceId }
  { b with
    manipulatedOriginalEvents := b.manipulatedOriginalEvents.filter fun id =>
      match b.objects[id]? with
      | none => false
      | some m => m.fromEvents ≠ ∅ }

omit [Exprtk] [SystemClock] [MachTimebase] in
/-- The presses that still hold something stay in the list. -/
theorem manipulatedOriginalEvents_handleDeviceUngrabbedEvent (b : Basic) (deviceId : DeviceId) :
    (b.handleDeviceUngrabbedEvent deviceId).manipulatedOriginalEvents =
      b.manipulatedOriginalEvents.filter fun id =>
        (b.handleDeviceUngrabbedEvent deviceId).objects[id]?.any fun m => m.fromEvents ≠ ∅ := by
  refine List.filter_congr fun id _ => ?_
  split
  next h =>
      have hnone : (b.handleDeviceUngrabbedEvent deviceId).objects[id]? = none := h
      rw [hnone, Option.any_none]
  next m h =>
      have hsome : (b.handleDeviceUngrabbedEvent deviceId).objects[id]? = some m := h
      rw [hsome, Option.any_some]

/-- `handle_pointing_device_event_from_event_tap`. -/
def handlePointingDeviceEventFromEventTap (b : Basic) (front : Entry) : Basic :=
  b.unsetAloneIfNeeded front.originalEvent front.eventType

end Basic

end Karabiner
