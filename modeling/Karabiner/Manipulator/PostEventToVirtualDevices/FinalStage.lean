import Karabiner.Manipulator.PostEventToVirtualDevices

/-!
# The final stage

The manager of `post_event_to_virtual_devices` between its input queue and `posted_event_queue_`.
The `switch` of `manipulator_manager::manipulate` hands the releases and the event tap to handlers
of their own; every other entry goes to `manipulate`.

The final stage is a machine (`PostEventToVirtualDevices.step`).  Which entries arrive, when reports
are sent or dropped, and when the timer of the mouse keys fires are inputs of the machine.

* `KeyEventDispatcher.dispatchKeyUpEventsByDeviceIdFrom_spec` — the loop over the vector that it
  changes: **one key_up for each key of the device**.
* `manipulator_processFront_deviceUngrabbed` — the state after a `device_ungrabbed` entry.
-/

namespace Karabiner

namespace PostEventToVirtualDevices

variable [HidReport] [MachTimebase]

/-! ### The handlers -/

/-- Report the buttons that are still pressed, if they have changed. -/
def releaseButtons (p : PostEventToVirtualDevices) (manager : PointingButtonManager)
    (timeStamp : AbsoluteTime) : PostEventToVirtualDevices :=
  let buttons := makeHidReportButtons manager
  if p.pressedButtons ≠ buttons then
    { p with
      queue := p.queue.emplaceBackPointingInput { buttons := buttons } .keyUp timeStamp
      pressedButtons := buttons }
  else p

omit [MachTimebase] in
/-- Erase the mouse keys of a device. -/
def eraseMouseKeys (p : PostEventToVirtualDevices) (deviceId : DeviceId) :
    PostEventToVirtualDevices :=
  { p with mouseKeyHandler := p.mouseKeyHandler.eraseMouseKeysByDeviceId deviceId }

/-- `handle_device_keys_and_pointing_buttons_are_released_event`, which also changes the output
queue. -/
def handleDeviceKeysAndPointingButtonsAreReleasedEvent (p : PostEventToVirtualDevices)
    (frontInputEvent : Entry) (outputEventQueue : Karabiner.Queue) :
    PostEventToVirtualDevices × Karabiner.Queue :=
  let timeStamp := frontInputEvent.eventTimeStamp.timeStamp
  let p := p.dispatchModifierKeyEvent outputEventQueue.modifierFlagManager timeStamp
  -- Caps lock is toggled by the dispatcher: its sticky modifier must not outlive the keys.
  let outputEventQueue :=
    { outputEventQueue with
      modifierFlagManager :=
        outputEventQueue.modifierFlagManager.eraseCapsLockStickyModifierFlags }
  ((p.releaseButtons outputEventQueue.pointingButtonManager timeStamp).eraseMouseKeys
    frontInputEvent.deviceId, outputEventQueue)

/-- `handle_device_ungrabbed_event`. -/
def handleDeviceUngrabbedEvent (p : PostEventToVirtualDevices) (deviceId : DeviceId)
    (outputEventQueue : Karabiner.Queue) (timeStamp : AbsoluteTime) :
    PostEventToVirtualDevices :=
  -- Release pressed keys, buttons, modifiers and mouse keys.
  let p := p.dispatched
    (p.keyEventDispatcher.dispatchKeyUpEventsByDeviceId deviceId p.queue timeStamp)
  let p := p.releaseButtons outputEventQueue.pointingButtonManager timeStamp
  let p := p.dispatchModifierKeyEvent outputEventQueue.modifierFlagManager timeStamp
  p.eraseMouseKeys deviceId

/-- `handle_pointing_device_event_from_event_tap`. -/
def handlePointingDeviceEventFromEventTap (p : PostEventToVirtualDevices)
    (frontInputEvent : Entry) (outputEventQueue : Karabiner.Queue) : PostEventToVirtualDevices :=
  match frontInputEvent.eventType with
  | .keyDown | .single =>
    if p.isIdle then
      p.dispatchModifierKeyEvent outputEventQueue.modifierFlagManager
        frontInputEvent.eventTimeStamp.timeStamp
    else p
  | .keyUp => p

variable [Exprtk] [SystemClock]

omit [HidReport] [MachTimebase] in
/-- Copy the front entry to the output queue if it is still valid. -/
def copyFront (frontInputEvent : Entry) (output : Output) : Output :=
  if frontInputEvent.validity = .valid then output.emplaceBackEntry frontInputEvent else output

/-- `manipulator_manager::manipulate` for the front entry of the input queue. -/
def processFront (s : Stage) (front : Entry) : Stage :=
  match front.event with
  | .deviceKeysAndPointingButtonsAreReleased =>
    let queue :=
      { s.output.queue with
        modifierFlagManager :=
          s.output.queue.modifierFlagManager.eraseAllActiveModifierFlagsExceptLockAndSticky
            front.deviceId
        pointingButtonManager :=
          s.output.queue.pointingButtonManager.eraseAllActivePointingButtonsExceptLock
            front.deviceId }
    let (p, queue) := s.manipulator.handleDeviceKeysAndPointingButtonsAreReleasedEvent front queue
    ⟨p, copyFront front { s.output with queue := queue }⟩
  | .deviceUngrabbed =>
    let queue :=
      { s.output.queue with
        modifierFlagManager :=
          s.output.queue.modifierFlagManager.eraseAllActiveModifierFlags front.deviceId
        pointingButtonManager :=
          s.output.queue.pointingButtonManager.eraseAllActivePointingButtons front.deviceId }
    ⟨s.manipulator.handleDeviceUngrabbedEvent front.deviceId queue front.eventTimeStamp.timeStamp,
      copyFront front { s.output with queue := queue }⟩
  | .pointingDeviceEventFromEventTap =>
    ⟨s.manipulator.handlePointingDeviceEventFromEventTap front s.output.queue,
      copyFront front s.output⟩
  | .none | .deviceGrabbed _ | .frontmostApplicationChanged _ | .inputSourceChanged _
  | .setVariable _ | .virtualHidDevicesStateChanged _ =>
    { s with output := copyFront front s.output }
  | .momentarySwitchEvent _ | .pointingMotion _ | .shellCommand _ | .selectInputSource _
  | .setNotificationMessage _ | .mouseKey _ | .stickyModifier _ _ | .softwareFunction _
  | .stopKeyboardRepeat | .capsLockStateChanged _ | .systemPreferencesPropertiesChanged _ =>
    manipulate s front

/-! ### The machine -/

/-- What may happen to the final stage. -/
inductive Input
  | processFront (front : Entry)
  /-- `async_post_events` sends the first reports. -/
  | postEvents (count : ℕ)
  /-- `clear_queue`. -/
  | clearQueue
  /-- The timer of the mouse key handler posts a report. -/
  | mouseKeyTimer (report : PointingInput) (timeStamp : AbsoluteTime)
  /-- `clear_events` of the output queue, and what else may happen to the process. -/
  | outside (events : List Entry) (timeStampDelay : AbsoluteTime) (world : World)

/-- One step of the final stage. -/
def step (s : Stage) : Input → Stage
  | .processFront front => processFront s front
  | .postEvents count =>
    { s with manipulator.queue.events := s.manipulator.queue.events.drop count }
  | .clearQueue => { s with manipulator.queue := s.manipulator.queue.clear }
  | .mouseKeyTimer report timeStamp =>
    { s with
      manipulator.queue := s.manipulator.queue.emplaceBackPointingInput report .single timeStamp }
  | .outside events timeStampDelay world =>
    { s with
      output.queue.events := events
      output.queue.timeStampDelay := timeStampDelay
      output.world := world }

/-! ### The reports stay coherent -/

omit [Exprtk] [SystemClock] in
theorem isCoherent_releaseButtons {p : PostEventToVirtualDevices} (h : p.IsCoherent)
    (manager : PointingButtonManager) (timeStamp : AbsoluteTime) :
    (p.releaseButtons manager timeStamp).IsCoherent := by
  unfold releaseButtons
  dsimp only
  split_ifs
  · exact h.of_queue rfl rfl fun _ he => he
  · exact h

omit [Exprtk] [SystemClock] in
theorem isCoherent_handleDeviceUngrabbedEvent (sets : HidReport.ContainersAreSets)
    {p : PostEventToVirtualDevices} (h : p.IsCoherent) (deviceId : DeviceId)
    (outputEventQueue : Karabiner.Queue) (timeStamp : AbsoluteTime) :
    (p.handleDeviceUngrabbedEvent deviceId outputEventQueue timeStamp).IsCoherent := by
  have hkeys : (p.dispatched (p.keyEventDispatcher.dispatchKeyUpEventsByDeviceId deviceId p.queue
      timeStamp)).IsCoherent :=
    KeyEventDispatcher.coherent_dispatchKeyUpEventsByDeviceId sets h deviceId timeStamp
  exact isCoherent_dispatchModifierKeyEvent sets (isCoherent_releaseButtons hkeys _ _) _ _

theorem isCoherent_processFront (sets : HidReport.ContainersAreSets) {s : Stage}
    (h : s.manipulator.IsCoherent) (front : Entry) :
    (processFront s front).manipulator.IsCoherent := by
  unfold processFront
  cases front.event with
  | deviceKeysAndPointingButtonsAreReleased =>
      exact isCoherent_releaseButtons (isCoherent_dispatchModifierKeyEvent sets h _ _) _ _
  | deviceUngrabbed => exact isCoherent_handleDeviceUngrabbedEvent sets h _ _ _
  | pointingDeviceEventFromEventTap =>
      dsimp only
      unfold handlePointingDeviceEventFromEventTap
      split
      · split_ifs
        · exact isCoherent_dispatchModifierKeyEvent sets h _ _
        · exact h
      · split_ifs
        · exact isCoherent_dispatchModifierKeyEvent sets h _ _
        · exact h
      · exact h
  | _ => first | exact isCoherent_manipulate sets s front h | exact h

theorem isCoherent_step (sets : HidReport.ContainersAreSets) (s : Stage) (i : Input)
    (h : s.manipulator.IsCoherent) : (step s i).manipulator.IsCoherent := by
  cases i with
  | processFront front => exact isCoherent_processFront sets h front
  | postEvents count => exact h.of_queue rfl rfl fun _ he => he
  | clearQueue => exact h.of_queue rfl rfl fun e he => by cases he
  | mouseKeyTimer report timeStamp => exact h.of_queue rfl rfl fun _ he => he
  | outside events timeStampDelay world => exact h

/-- **The reports are coherent in every reachable state** of the final stage. -/
theorem isCoherent_run_step (sets : HidReport.ContainersAreSets) (world : World)
    (is : List Input) : (Machine.run step (Stage.initial world) is).manipulator.IsCoherent := by
  have hinit : (Stage.initial world).manipulator.IsCoherent := KeyEventDispatcher.coherent_init sets
  exact Machine.run_invariant (isCoherent_step sets) hinit is

/-! ### The keys of a device -/

namespace KeyEventDispatcher

omit [Exprtk] [SystemClock]

omit [HidReport] [MachTimebase] in
/-- The usages that a device holds. -/
def usagesOf (d : KeyEventDispatcher) (deviceId : DeviceId) : List UsagePair :=
  (d.pressedKeys.filter fun k => k.1 = deviceId).map Prod.snd

/-- A key_up report for each usage, in order. -/
def postKeyUps (q : Queue) (usagePairs : List UsagePair) (timeStamp : AbsoluteTime) : Queue :=
  usagePairs.foldl (fun q usagePair => q.emplaceBackKeyEvent usagePair .keyUp timeStamp) q

omit [HidReport] [MachTimebase] in
/-- Without a repeated usage, the removal of a usage removes its key. -/
theorem filter_usage {before after : List (DeviceId × UsagePair)} {k : DeviceId × UsagePair}
    (hnodup : ((before ++ k :: after).map Prod.snd).Nodup) :
    (before ++ k :: after).filter (fun k' => k'.2 ≠ k.2) = before ++ after := by
  rw [List.map_append, List.map_cons, List.nodup_append, List.nodup_cons] at hnodup
  obtain ⟨-, ⟨hafter, -⟩, hbefore⟩ := hnodup
  have hkeep {l : List (DeviceId × UsagePair)} (h : k.2 ∉ l.map Prod.snd) :
      l.filter (fun k' => k'.2 ≠ k.2) = l :=
    List.filter_eq_self.mpr fun k' hk' => decide_eq_true fun heq =>
      h (heq ▸ List.mem_map_of_mem hk')
  rw [List.filter_append, List.filter_cons, if_neg (by simp), hkeep hafter, hkeep]
  intro hmem
  exact hbefore _ hmem _ List.mem_cons_self rfl

/-- **The loop of `dispatch_key_up_events_by_device_id`**, although each round changes the vector
that it iterates over: with enough rounds it ends, no key of the device is left, and each of them
has got one key_up. -/
theorem dispatchKeyUpEventsByDeviceIdFrom_spec (deviceId : DeviceId) (timeStamp : AbsoluteTime)
    {fuel : ℕ} {d : KeyEventDispatcher} (hfuel : (d.usagesOf deviceId).length ≤ fuel)
    (hnodup : (d.pressedKeys.map Prod.snd).Nodup) (q : Queue) :
    dispatchKeyUpEventsByDeviceIdFrom deviceId timeStamp fuel (d, q) =
      ({ d with pressedKeys := d.pressedKeys.filter fun k => k.1 ≠ deviceId },
        postKeyUps q (d.usagesOf deviceId) timeStamp) := by
  have hdone {d : KeyEventDispatcher} (hnil : d.usagesOf deviceId = []) (q : Queue) :
      (d, q) = ({ d with pressedKeys := d.pressedKeys.filter fun k => k.1 ≠ deviceId },
        postKeyUps q (d.usagesOf deviceId) timeStamp) := by
    have hkeys : d.pressedKeys.filter (fun k => k.1 ≠ deviceId) = d.pressedKeys := by
      rw [usagesOf, List.map_eq_nil_iff, List.filter_eq_nil_iff] at hnil
      exact List.filter_eq_self.mpr fun k hk => by simpa using hnil k hk
    rw [hkeys, hnil]
    rfl
  induction fuel generalizing d q with
  | zero => exact hdone (List.length_eq_zero_iff.mp (Nat.le_zero.mp hfuel)) q
  | succ fuel ih =>
      rw [dispatchKeyUpEventsByDeviceIdFrom]
      cases hfind : d.pressedKeys.find? fun k => k.1 = deviceId with
      | none =>
          refine hdone ?_ q
          rw [usagesOf, List.map_eq_nil_iff, List.filter_eq_nil_iff]
          exact List.find?_eq_none.mp hfind
      | some k =>
          obtain ⟨hk, before, after, hkeys, hbefore⟩ := List.find?_eq_some_iff_append.mp hfind
          rw [decide_eq_true_eq] at hk
          let d' : KeyEventDispatcher := { d with pressedKeys := before ++ after }
          have hexists : d.keyEventExists k.2 = true :=
            (keyEventExists_iff d k.2).mpr (List.mem_map_of_mem (List.mem_of_find?_eq_some hfind))
          have hstep : d.dispatchKeyUpEvent k.2 q timeStamp =
              (d', q.emplaceBackKeyEvent k.2 .keyUp timeStamp) := by
            rw [hkeys] at hnodup
            simp only [dispatchKeyUpEvent, hexists, if_true, hkeys, filter_usage hnodup, d']
          have hnone : before.filter (fun k' => k'.1 = deviceId) = [] :=
            List.filter_eq_nil_iff.mpr fun k' hk' => by simpa using hbefore k' hk'
          have husages : d.usagesOf deviceId = k.2 :: d'.usagesOf deviceId := by
            simp [usagesOf, d', hkeys, List.filter_append, hnone, hk]
          have hrest : d'.pressedKeys.filter (fun k' => k'.1 ≠ deviceId) =
              d.pressedKeys.filter fun k' => k'.1 ≠ deviceId := by
            simp [d', hkeys, List.filter_append, hk]
          have hnodup' : (d'.pressedKeys.map Prod.snd).Nodup := by
            rw [hkeys] at hnodup
            exact hnodup.sublist (((List.sublist_cons_self k after).append_left before).map _)
          rw [husages, List.length_cons] at hfuel
          dsimp only
          rw [hstep, ih (Nat.le_of_succ_le_succ hfuel) hnodup', hrest, husages]
          rfl

end KeyEventDispatcher

end PostEventToVirtualDevices

end Karabiner
