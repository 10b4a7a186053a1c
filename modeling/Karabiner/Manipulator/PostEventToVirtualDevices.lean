import Karabiner.EventQueue.Queue
import Karabiner.Manipulator.PostEventToVirtualDevices.KeyEventDispatcher
import Karabiner.ModifierFlagCounters

/-!
# Posting events to the virtual devices

`manipulators/post_event_to_virtual_devices/post_event_to_virtual_devices.hpp`, the last manipulator
of the pipeline.  It pushes every entry to its output queue, which keeps the modifier flags, and
turns the entry into reports of the virtual devices.  Modifiers are reported lazily: before a
key_down, and after a modifier key that is not lazy.

The notification messages of sticky modifiers, and the timer of the mouse key handler, which moves
the pointer, post no key report and are left out here.
-/

namespace Karabiner

namespace PostEventToVirtualDevices

/-! ### The mouse key handler -/

/-- `mouse_key_handler`: the mouse keys that are held. -/
structure MouseKeyHandler where
  entries : List (DeviceId × MouseKey) := []

namespace MouseKeyHandler

/-- `erase_mouse_key`. -/
def eraseMouseKey (h : MouseKeyHandler) (deviceId : DeviceId) (m : MouseKey) : MouseKeyHandler :=
  ⟨h.entries.filter fun e => !(e.1 = deviceId && e.2 = m)⟩

/-- `push_back_mouse_key`. -/
def pushBackMouseKey (h : MouseKeyHandler) (deviceId : DeviceId) (m : MouseKey) :
    MouseKeyHandler :=
  ⟨(h.eraseMouseKey deviceId m).entries ++ [(deviceId, m)]⟩

/-- `erase_mouse_keys_by_device_id`. -/
def eraseMouseKeysByDeviceId (h : MouseKeyHandler) (deviceId : DeviceId) : MouseKeyHandler :=
  ⟨h.entries.filter fun e => e.1 ≠ deviceId⟩

/-- `active`, which every change of the entries sets to `!entries_.empty()`. -/
def active (h : MouseKeyHandler) : Bool := !h.entries.isEmpty

end MouseKeyHandler

end PostEventToVirtualDevices

/-! ### The manipulator -/

/-- `post_event_to_virtual_devices`. -/
structure PostEventToVirtualDevices [HidReport] where
  queue : PostEventToVirtualDevices.Queue := {}
  keyEventDispatcher : PostEventToVirtualDevices.KeyEventDispatcher := {}
  mouseKeyHandler : PostEventToVirtualDevices.MouseKeyHandler := {}
  pressedButtons : HidReport.Buttons := HidReport.noButtons

namespace PostEventToVirtualDevices

variable [HidReport] [MachTimebase]

omit [MachTimebase] in
/-- `make_hid_report_buttons`, in the container of the driver. -/
def makeHidReportButtons (manager : PointingButtonManager) : HidReport.Buttons :=
  manager.makeHidReportButtons.foldl HidReport.insertButton HidReport.noButtons

omit [MachTimebase] in
/-- The container has the buttons that have been inserted. -/
theorem buttonExists_makeHidReportButtons (sets : HidReport.ContainersAreSets)
    (manager : PointingButtonManager) (n : ℕ) :
    HidReport.buttonExists (makeHidReportButtons manager) n = true ↔
      n ∈ manager.makeHidReportButtons := by
  have hfold (l : List ℕ) (hl : ∀ n ∈ l, 1 ≤ n ∧ n ≤ 32) (buttons : HidReport.Buttons) :
      HidReport.buttonExists (l.foldl HidReport.insertButton buttons) n = true ↔
        n ∈ l ∨ HidReport.buttonExists buttons n = true := by
    induction l generalizing buttons with
    | nil => simp
    | cons n' l ih =>
        obtain ⟨low, high⟩ := hl n' List.mem_cons_self
        rw [List.foldl_cons, ih fun m hm => hl m (List.mem_cons_of_mem _ hm),
          sets.buttonExists_insertButton buttons low high, Bool.or_eq_true, decide_eq_true_eq,
          List.mem_cons, ← or_assoc, or_comm (a := n ∈ l)]
  rw [makeHidReportButtons, hfold _ fun m hm => manager.range_of_mem_makeHidReportButtons hm,
    sets.buttonExists_noButtons]
  simp

/-- Keep what a call of the dispatcher returns. -/
def dispatched (p : PostEventToVirtualDevices) (s : KeyEventDispatcher × Queue) :
    PostEventToVirtualDevices :=
  { p with keyEventDispatcher := s.1, queue := s.2 }

/-- `dispatch_modifier_key_event`. -/
def dispatchModifierKeyEvent (p : PostEventToVirtualDevices) (manager : ModifierFlagManager)
    (timeStamp : AbsoluteTime) : PostEventToVirtualDevices :=
  p.dispatched (p.keyEventDispatcher.dispatchModifierKeyEvent manager p.queue timeStamp)

omit [MachTimebase] in
/-- Synchronise the caps lock of the dispatcher with the LED, unless a sticky caps lock controls
it. -/
def synchronizeCapsLock (p : PostEventToVirtualDevices) (manager : ModifierFlagManager)
    (frontInputEvent : Entry) : PostEventToVirtualDevices :=
  match frontInputEvent.event with
  | .capsLockStateChanged state =>
    if manager.stickySize .capsLock = 0 then
      { p with
        keyEventDispatcher :=
          if state ≠ 0 then p.keyEventDispatcher.insertPressedModifierFlag .capsLock
          else p.keyEventDispatcher.erasePressedModifierFlag .capsLock }
    else p
  | _ => p

omit [HidReport] [MachTimebase] in
/-- `front_input_event_modifier_key_event`. -/
def isModifierKeyEvent (frontInputEvent : Entry) : Bool :=
  match frontInputEvent.event with
  | .momentarySwitchEvent e => e.modifierFlag
  | _ => false

omit [MachTimebase] in
/-- Neither a key repeats, nor a button is pressed, nor a mouse key is held. -/
def isIdle (p : PostEventToVirtualDevices) : Bool :=
  !p.queue.keyboardRepeatDetector.isRepeating && HidReport.buttonsEmpty p.pressedButtons &&
    !p.mouseKeyHandler.active

omit [MachTimebase] in
/-- `dispatch_modifier_key_event_before`: whether to dispatch before the entry is pushed. -/
def dispatchesBefore (p : PostEventToVirtualDevices) (frontInputEvent : Entry) : Bool :=
  !isModifierKeyEvent frontInputEvent &&
    (frontInputEvent.eventType = .keyDown ||
      -- We should not dispatch modifier key events while key repeating.
      match frontInputEvent.event with
      | .pointingMotion _ => p.isIdle
      | _ => false)

/-- Dispatch the modifiers before the entry is pushed. -/
def dispatchBefore (p : PostEventToVirtualDevices) (manager : ModifierFlagManager)
    (frontInputEvent : Entry) : PostEventToVirtualDevices :=
  if p.dispatchesBefore frontInputEvent then
    p.dispatchModifierKeyEvent manager frontInputEvent.eventTimeStamp.timeStamp
  else p

/-- Dispatch the modifiers after the entry has been pushed: for a modifier key that is not
lazy. -/
def dispatchAfter (p : PostEventToVirtualDevices) (manager : ModifierFlagManager)
    (frontInputEvent : Entry) : PostEventToVirtualDevices :=
  if isModifierKeyEvent frontInputEvent && !frontInputEvent.isLazy then
    p.dispatchModifierKeyEvent manager frontInputEvent.eventTimeStamp.timeStamp
  else p

/-- `post_pointing_input_report`. -/
def postPointingInputReport (p : PostEventToVirtualDevices) (frontInputEvent : Entry)
    (manager : PointingButtonManager) : PostEventToVirtualDevices :=
  let buttons := makeHidReportButtons manager
  let report : PointingInput :=
    match frontInputEvent.event with
    | .pointingMotion m => ⟨buttons, m.x, m.y, m.verticalWheel, m.horizontalWheel⟩
    | _ => { buttons := buttons }
  { p with
    queue := p.queue.emplaceBackPointingInput report frontInputEvent.eventType
      frontInputEvent.eventTimeStamp.timeStamp
    pressedButtons := buttons }

/-- What `manipulate` posts for the event itself, once the entry has been pushed. -/
def postEvent (p : PostEventToVirtualDevices) (frontInputEvent : Entry)
    (manager : PointingButtonManager) : PostEventToVirtualDevices :=
  let timeStamp := frontInputEvent.eventTimeStamp.timeStamp
  let deviceId := frontInputEvent.deviceId
  match frontInputEvent.event, frontInputEvent.eventType with
  | .momentarySwitchEvent e, eventType =>
    if !e.valid then p
    else if e.pointingButton then p.postPointingInputReport frontInputEvent manager
    else if isModifierKeyEvent frontInputEvent then p
    else match eventType with
      | .keyDown =>
        p.dispatched (p.keyEventDispatcher.dispatchKeyDownEvent deviceId e.usagePair p.queue
          timeStamp)
      | .keyUp =>
        p.dispatched (p.keyEventDispatcher.dispatchKeyUpEvent e.usagePair p.queue timeStamp)
      | .single => p
  | .pointingMotion _, _ => p.postPointingInputReport frontInputEvent manager
  | .shellCommand command, .keyDown =>
    { p with queue := p.queue.pushBackShellCommandEvent command timeStamp }
  | .selectInputSource specifiers, .keyDown =>
    { p with queue := p.queue.pushBackSelectInputSourceEvent specifiers timeStamp }
  | .mouseKey m, .keyDown =>
    { p with mouseKeyHandler := p.mouseKeyHandler.pushBackMouseKey deviceId m }
  | .mouseKey m, .keyUp =>
    { p with mouseKeyHandler := p.mouseKeyHandler.eraseMouseKey deviceId m }
  | .softwareFunction f, .keyDown =>
    { p with queue := p.queue.pushBackSoftwareFunctionEvent f timeStamp }
  | .stopKeyboardRepeat, _ =>
    match p.queue.keyboardRepeatDetector.repeatingKey with
    | some e => p.dispatched (p.keyEventDispatcher.dispatchKeyUpEvent e.usagePair p.queue timeStamp)
    | none => p
  | _, _ => p

/-- The manipulator with its output queue. -/
structure Stage [Exprtk] where
  manipulator : PostEventToVirtualDevices := {}
  output : Output

variable [Exprtk] [SystemClock]

/-- `manipulate`, which leaves the entry invalid. -/
def manipulate (s : Stage) (frontInputEvent : Entry) : Stage :=
  if frontInputEvent.validity = .invalid then s
  else
    let manager := s.output.queue.modifierFlagManager
    -- `modifier_flag_manager` is changed by the push.
    let output := s.output.emplaceBackEntry frontInputEvent
    { manipulator :=
        (((s.manipulator.synchronizeCapsLock manager frontInputEvent).dispatchBefore manager
          frontInputEvent).postEvent frontInputEvent
            output.queue.pointingButtonManager).dispatchAfter output.queue.modifierFlagManager
              frontInputEvent
      output := output }

/-- The initial state, with a new output queue. -/
def Stage.initial (world : World) : Stage where
  output := ⟨{}, world⟩

/-! ### The reports stay coherent -/

/-- The reports of the manipulator are the state of its dispatcher. -/
def IsCoherent (p : PostEventToVirtualDevices) : Prop :=
  KeyEventDispatcher.Coherent (p.keyEventDispatcher, p.queue)

omit [MachTimebase] [Exprtk] [SystemClock] in
/-- Synchronizing caps lock keeps dispatcher and report in agreement. -/
theorem isCoherent_synchronizeCapsLock {p : PostEventToVirtualDevices} (h : p.IsCoherent)
    (manager : ModifierFlagManager) (e : Entry) : (p.synchronizeCapsLock manager e).IsCoherent := by
  unfold synchronizeCapsLock
  split
  · split_ifs
    · exact h.of_flags fun m hm => by simp [hm]
    · exact h.of_flags fun m hm => by simp [hm]
    · exact h
  · exact h

omit [Exprtk] [SystemClock] in
/-- Dispatching the modifiers keeps dispatcher and report in agreement. -/
theorem isCoherent_dispatchModifierKeyEvent (sets : HidReport.ContainersAreSets)
    {p : PostEventToVirtualDevices} (h : p.IsCoherent) (manager : ModifierFlagManager)
    (timeStamp : AbsoluteTime) : (p.dispatchModifierKeyEvent manager timeStamp).IsCoherent :=
  KeyEventDispatcher.coherent_dispatchModifierKeyEvent sets h manager timeStamp

omit [Exprtk] [SystemClock] in
/-- Posting an event keeps dispatcher and report in agreement. -/
theorem isCoherent_postEvent (sets : HidReport.ContainersAreSets) {p : PostEventToVirtualDevices}
    (h : p.IsCoherent) (e : Entry) (manager : PointingButtonManager) :
    (p.postEvent e manager).IsCoherent := by
  have hpointing : (p.postPointingInputReport e manager).IsCoherent :=
    h.of_queue rfl rfl fun _ he => he
  simp only [postEvent]
  split
  next s _ hevent =>
      split_ifs with hvalid hbutton hmodifier
      · exact h
      · exact hpointing
      · exact h
      · split
        · refine KeyEventDispatcher.coherent_dispatchKeyDownEvent sets h ?_ _ _
          simpa [isModifierKeyEvent, hevent] using hmodifier
        · exact KeyEventDispatcher.coherent_dispatchKeyUpEvent sets h _ _
        · exact h
  next => exact hpointing
  case h_8 =>
      split
      · exact KeyEventDispatcher.coherent_dispatchKeyUpEvent sets h _ _
      · exact h
  all_goals exact h.of_queue rfl rfl fun _ he => he

/-- **One entry keeps the reports coherent.** -/
theorem isCoherent_manipulate (sets : HidReport.ContainersAreSets) (s : Stage) (e : Entry)
    (h : s.manipulator.IsCoherent) : (manipulate s e).manipulator.IsCoherent := by
  have hdispatch : ∀ {p : PostEventToVirtualDevices} (c : Bool) (manager : ModifierFlagManager) t,
      p.IsCoherent → (if c then p.dispatchModifierKeyEvent manager t else p).IsCoherent := by
    intro p c manager t hp
    split_ifs
    · exact isCoherent_dispatchModifierKeyEvent sets hp manager t
    · exact hp
  unfold manipulate
  split_ifs
  · exact h
  · exact hdispatch _ _ _ (isCoherent_postEvent sets
      (hdispatch _ _ _ (isCoherent_synchronizeCapsLock h _ e)) e _)

/-- Dispatcher and report agree after any entries. -/
theorem isCoherent_run (sets : HidReport.ContainersAreSets) (world : World)
    (entries : List Entry) :
    (Machine.run manipulate (Stage.initial world) entries).manipulator.IsCoherent := by
  have hinit : (Stage.initial world).manipulator.IsCoherent := KeyEventDispatcher.coherent_init sets
  exact Machine.run_invariant (isCoherent_manipulate sets) hinit entries

/-! ### What is reported with a key -/

/-- **A key_down of a key is posted after the modifiers** of the output queue, as they are before
the entry is pushed. -/
theorem manipulate_keyDown (sets : HidReport.ContainersAreSets) {s : Stage}
    (h : s.manipulator.IsCoherent) {front : Entry} {e : MomentarySwitchEvent}
    (hvalid : front.validity = .valid) (hevent : front.event = .momentarySwitchEvent e)
    (hmodifier : e.modifierFlag = false) (hbutton : e.pointingButton = false)
    (hdown : front.eventType = .keyDown) :
    let manager := s.output.queue.modifierFlagManager
    let timeStamp := front.eventTimeStamp.timeStamp
    let p := s.manipulator.dispatchModifierKeyEvent manager timeStamp
    p.queue.keyboardInput.modifiers = KeyEventDispatcher.makeHidReportModifiers manager ∧
      (manipulate s front).manipulator.queue =
        (if e.valid && !p.keyEventDispatcher.keyEventExists e.usagePair then
          p.queue.emplaceBackKeyEvent e.usagePair .keyDown timeStamp
        else p.queue) ∧
      (manipulate s front).manipulator.queue.keyboardInput.modifiers =
        p.queue.keyboardInput.modifiers := by
  intro manager timeStamp p
  have hqueue : (manipulate s front).manipulator.queue =
      if e.valid && !p.keyEventDispatcher.keyEventExists e.usagePair then
        p.queue.emplaceBackKeyEvent e.usagePair .keyDown timeStamp
      else p.queue := by
    have hfirst : ((s.manipulator.synchronizeCapsLock manager front).dispatchBefore manager front)
        = p := by
      simp only [synchronizeCapsLock, dispatchBefore, dispatchesBefore, isModifierKeyEvent, hevent,
        hmodifier, hdown]
      rfl
    simp only [manipulate, hvalid, reduceCtorEq, if_false]
    rw [hfirst]
    simp only [postEvent, dispatchAfter, isModifierKeyEvent, hevent, hmodifier, hbutton, hdown,
      Bool.false_and, Bool.false_eq_true, if_false]
    cases e.valid
    · rfl
    · simp only [Bool.not_true, Bool.false_eq_true, if_false, Bool.true_and, dispatched,
        KeyEventDispatcher.dispatchKeyDownEvent]
      split_ifs <;> rfl
  refine ⟨KeyEventDispatcher.modifiers_dispatchModifierKeyEvent sets h manager timeStamp, hqueue,
    ?_⟩
  rw [hqueue]
  split_ifs
  · exact p.queue.modifiers_emplaceBackKeyEvent
      (KeyEventDispatcher.modifierBit_eq_none hmodifier) _ _
  · rfl

/-! ### Lazy modifiers -/

/-- A valid entry of a lazy modifier key. -/
structure IsLazyModifier (m : ModifierFlag) (front : Entry) : Prop where
  valid : front.validity = .valid
  isLazy : front.isLazy = true
  event : ∃ e : MomentarySwitchEvent, front.event = .momentarySwitchEvent e ∧
    e.makeModifierFlag = some m

omit [HidReport] [MachTimebase] [Exprtk] [SystemClock] in
/-- The entry that a modifier key pushes to the manager. -/
def activeModifierFlag (m : ModifierFlag) (front : Entry) : ActiveModifierFlag :=
  .make (Karabiner.Queue.activeModifierFlagType front.eventType) m front.deviceId

omit [HidReport] [MachTimebase] [Exprtk] [SystemClock] in
/-- A modifier key brings a plain entry. -/
theorem kind_activeModifierFlag (m : ModifierFlag) (front : Entry) :
    (activeModifierFlag m front).kind = .plain := by
  cases h : front.eventType <;>
    simp [activeModifierFlag, ActiveModifierFlag.make, ActiveModifierFlag.kind,
      Karabiner.Queue.activeModifierFlagType, h]

omit [HidReport] [MachTimebase] [Exprtk] [SystemClock] in
/-- A modifier key is no pointing button. -/
theorem pointingButton_of_makeModifierFlag {e : MomentarySwitchEvent} {m : ModifierFlag}
    (h : e.makeModifierFlag = some m) : e.pointingButton = false := by
  rw [MomentarySwitchEvent.pointingButton, decide_eq_false_iff_not]
  intro hpage
  simp [MomentarySwitchEvent.makeModifierFlag, hpage, UsagePage.button,
    UsagePage.keyboardOrKeypad, UsagePage.appleVendorKeyboard, UsagePage.appleVendorTopCase] at h

/-- **A lazy modifier key only counts in the manager**: nothing is posted. -/
theorem manipulate_lazyModifier {m : ModifierFlag} {front : Entry} (h : IsLazyModifier m front)
    (s : Stage) :
    (manipulate s front).manipulator = s.manipulator ∧
      (manipulate s front).output.queue.modifierFlagManager =
        s.output.queue.modifierFlagManager.pushBackActiveModifierFlag (activeModifierFlag m front) ∧
      (manipulate s front).output.queue.pointingButtonManager =
        s.output.queue.pointingButtonManager := by
  obtain ⟨hvalid, hlazy, e, hevent, hm⟩ := h
  have hmodifier : e.modifierFlag = true := by rw [MomentarySwitchEvent.modifierFlag, hm]; rfl
  have hbutton := pointingButton_of_makeModifierFlag hm
  simp only [manipulate, hvalid, reduceCtorEq, if_false]
  refine ⟨?_, ?_, ?_⟩
  · simp only [synchronizeCapsLock, dispatchBefore, dispatchesBefore, postEvent, dispatchAfter,
      isModifierKeyEvent, hevent, hmodifier, hbutton, hlazy, Bool.not_true, Bool.false_and,
      Bool.and_false, Bool.false_eq_true, if_false, if_true]
    split_ifs <;> rfl
  · simp only [Output.emplaceBackEntry_modifierFlagManager,
      Karabiner.Queue.updateModifierFlagManager, hevent, hm, hmodifier, Bool.not_true,
      Bool.and_false, Bool.false_eq_true, if_false]
    rfl
  · simp only [Output.emplaceBackEntry, Karabiner.Queue.updatePointingButtonManager, hevent,
      hbutton, Bool.false_eq_true, if_false]

/-- Lazy modifier keys only count in the manager. -/
theorem run_lazyModifiers {mid : List Entry} (h : ∀ e ∈ mid, ∃ m, IsLazyModifier m e) :
    ∃ flags : List ActiveModifierFlag, (∀ f ∈ flags, f.kind = .plain) ∧ ∀ s : Stage,
      (Machine.run manipulate s mid).manipulator = s.manipulator ∧
      (Machine.run manipulate s mid).output.queue.modifierFlagManager =
        flags.foldl ModifierFlagManager.pushBackActiveModifierFlag
          s.output.queue.modifierFlagManager ∧
      (Machine.run manipulate s mid).output.queue.pointingButtonManager =
        s.output.queue.pointingButtonManager := by
  induction mid with
  | nil => exact ⟨[], by simp, fun s => ⟨rfl, rfl, rfl⟩⟩
  | cons e mid ih =>
      obtain ⟨m, he⟩ := h e List.mem_cons_self
      obtain ⟨flags, hflags, hrun⟩ := ih fun e' he' => h e' (List.mem_cons_of_mem _ he')
      refine ⟨activeModifierFlag m e :: flags, ?_, fun s => ?_⟩
      · intro f hf
        rcases List.mem_cons.mp hf with rfl | hf
        · exact kind_activeModifierFlag m e
        · exact hflags f hf
      · obtain ⟨hp, hmanager, hbuttons⟩ := manipulate_lazyModifier he s
        obtain ⟨hp', hmanager', hbuttons'⟩ := hrun (manipulate s e)
        exact ⟨hp'.trans hp, by rw [Machine.run_cons, hmanager', hmanager, List.foldl_cons],
          hbuttons'.trans hbuttons⟩

/-! ### Independence of the order of the manager's list -/

/-- Two stages that post the same: they differ in the order of the manager's list only, and in
what posting does not read. -/
structure SamePosts (s t : Stage) : Prop where
  manipulator : s.manipulator = t.manipulator
  modifierFlagManager : s.output.queue.modifierFlagManager.Agree t.output.queue.modifierFlagManager
  pointingButtonManager :
    s.output.queue.pointingButtonManager = t.output.queue.pointingButtonManager

omit [Exprtk] [SystemClock] in
theorem dispatchModifierKeyEvent_congr {m m' : ModifierFlagManager}
    (h : ∀ flag, m.isPressed flag = m'.isPressed flag) (p : PostEventToVirtualDevices)
    (timeStamp : AbsoluteTime) :
    p.dispatchModifierKeyEvent m timeStamp = p.dispatchModifierKeyEvent m' timeStamp := by
  have hround : KeyEventDispatcher.dispatchModifierFlag m timeStamp =
      KeyEventDispatcher.dispatchModifierFlag m' timeStamp := by
    funext s flag
    simp only [KeyEventDispatcher.dispatchModifierFlag, h]
  simp only [dispatchModifierKeyEvent, KeyEventDispatcher.dispatchModifierKeyEvent, hround]

omit [HidReport] [MachTimebase] [Exprtk] [SystemClock] in
/-- A push keeps managers in agreement. -/
theorem agree_updateModifierFlagManager {m m' : ModifierFlagManager} (h : m.Agree m')
    (e : Entry) :
    (Karabiner.Queue.updateModifierFlagManager m e).Agree
      (Karabiner.Queue.updateModifierFlagManager m' e) := by
  simp only [Karabiner.Queue.updateModifierFlagManager, ModifierFlagManager.stickySize_perm h.perm]
  split
  · next e' _ =>
      cases e'.makeModifierFlag <;> dsimp only <;> split_ifs
      · exact h.step .eraseAllStickyModifierFlags
      · exact h
      · exact (h.step (.pushBackActiveModifierFlag _)).step .eraseAllStickyModifierFlags
      · exact h.step (.pushBackActiveModifierFlag _)
  · split
    · exact h.step (.pushBackActiveModifierFlag _)
    · exact h
  · exact h.step (.pushBackActiveModifierFlag _)
  · exact h

omit [MachTimebase] [Exprtk] [SystemClock] in
theorem synchronizeCapsLock_congr {m m' : ModifierFlagManager}
    (h : m.stickySize .capsLock = m'.stickySize .capsLock) (p : PostEventToVirtualDevices)
    (e : Entry) : p.synchronizeCapsLock m e = p.synchronizeCapsLock m' e := by
  unfold synchronizeCapsLock
  rw [h]

omit [Exprtk] [SystemClock] in
theorem dispatchBefore_congr {m m' : ModifierFlagManager}
    (h : ∀ flag, m.isPressed flag = m'.isPressed flag) (p : PostEventToVirtualDevices)
    (e : Entry) : p.dispatchBefore m e = p.dispatchBefore m' e := by
  simp only [dispatchBefore, dispatchModifierKeyEvent_congr h]

omit [Exprtk] [SystemClock] in
theorem dispatchAfter_congr {m m' : ModifierFlagManager}
    (h : ∀ flag, m.isPressed flag = m'.isPressed flag) (p : PostEventToVirtualDevices)
    (e : Entry) : p.dispatchAfter m e = p.dispatchAfter m' e := by
  simp only [dispatchAfter, dispatchModifierKeyEvent_congr h]

/-- One entry keeps two stages posting the same. -/
theorem samePosts_manipulate {s t : Stage} (h : SamePosts s t) (front : Entry) :
    SamePosts (manipulate s front) (manipulate t front) := by
  obtain ⟨hp, hmanager, hbuttons⟩ := h
  have hafter := agree_updateModifierFlagManager hmanager front
  have hpressed := ModifierFlagManager.isPressed_perm hmanager.perm
  have hpressed' := ModifierFlagManager.isPressed_perm hafter.perm
  have hpush : (s.output.emplaceBackEntry front).queue.pointingButtonManager =
      (t.output.emplaceBackEntry front).queue.pointingButtonManager := by
    simp only [Output.emplaceBackEntry, hbuttons]
  unfold manipulate
  split_ifs
  · exact ⟨hp, hmanager, hbuttons⟩
  · refine ⟨?_, hafter, hpush⟩
    dsimp only
    rw [hp, synchronizeCapsLock_congr (ModifierFlagManager.stickySize_perm hmanager.perm _),
      dispatchBefore_congr hpressed, hpush]
    exact dispatchAfter_congr hpressed' _ front

/-- Stages that post the same do so for any entries. -/
theorem samePosts_run {s t : Stage} (h : SamePosts s t) (entries : List Entry) :
    SamePosts (Machine.run manipulate s entries) (Machine.run manipulate t entries) :=
  Machine.run_simulation (R := SamePosts) (fun _ _ e h => samePosts_manipulate h e) h entries

/-- The manager of a run agrees with itself: it has no pairs. -/
theorem agree_self_run (world : World) (entries : List Entry) :
    let s := Machine.run manipulate (Stage.initial world) entries
    s.output.queue.modifierFlagManager.Agree s.output.queue.modifierFlagManager :=
  (samePosts_run (s := Stage.initial world) (t := Stage.initial world)
    ⟨rfl, ⟨_, ModifierFlagManager.run_refines [], ModifierFlagManager.run_refines []⟩, rfl⟩
    entries).modifierFlagManager

/-- Two lazy entries of one modifier and device, with lazy modifiers between them, leave the stage
as if they had not been there. -/
theorem samePosts_insert {s : Stage}
    (hs : s.output.queue.modifierFlagManager.Agree s.output.queue.modifierFlagManager)
    {mid : List Entry} (hmid : ∀ e ∈ mid, ∃ m, IsLazyModifier m e) {m : ModifierFlag}
    {down up : Entry} (hdown : IsLazyModifier m down) (hup : IsLazyModifier m up)
    (downType : down.eventType = .keyDown) (upType : up.eventType = .keyUp)
    (device : down.deviceId = up.deviceId) :
    SamePosts (Machine.run manipulate s (down :: mid ++ [up])) (Machine.run manipulate s mid) := by
  obtain ⟨flags, hflags, hrun⟩ := run_lazyModifiers hmid
  obtain ⟨c, hc, -⟩ := hs
  have hpaired : (activeModifierFlag m down).isPaired (activeModifierFlag m up) = true := by
    simp [activeModifierFlag, ActiveModifierFlag.isPaired, ActiveModifierFlag.inverseType,
      ActiveModifierFlag.make, Karabiner.Queue.activeModifierFlagType, downType, upType, device,
      ActiveModifierFlagType.inverse, ActiveModifierFlagType.ledLock]
  have hagree := ModifierFlagManager.agree_insert_pair hc hflags (kind_activeModifierFlag m down)
    (kind_activeModifierFlag m up) hpaired
  obtain ⟨hp, hmanager, hbuttons⟩ := hrun s
  obtain ⟨hp₁, hmanager₁, hbuttons₁⟩ := manipulate_lazyModifier hdown s
  obtain ⟨hp₂, hmanager₂, hbuttons₂⟩ := hrun (manipulate s down)
  obtain ⟨hp₃, hmanager₃, hbuttons₃⟩ :=
    manipulate_lazyModifier hup (Machine.run manipulate (manipulate s down) mid)
  rw [List.cons_append, Machine.run_cons, Machine.run_concat]
  refine ⟨?_, ?_, ?_⟩
  · rw [hp₃, hp₂, hp₁, hp]
  · rw [hmanager₃, hmanager₂, hmanager₁, hmanager]
    simpa only [List.cons_append, List.foldl_cons, List.foldl_append, List.foldl_nil] using hagree
  · rw [hbuttons₃, hbuttons₂, hbuttons₁, hbuttons]

/-- **The modifiers that the system sees.**  Along every run: a key_down of a key is reported with
exactly those of the eight modifiers that are pressed in the output queue before the entry is
pushed, in one report behind those of the modifiers, in which the key has been added to what was
pressed on its usage page; and a lazy key_down and a later lazy key_up of one modifier and device,
with only lazy modifiers between them, change no report of the run. -/
theorem run_reports (sets : HidReport.ContainersAreSets) (world : World) :
    (∀ (before : List Entry) (front : Entry) (e : MomentarySwitchEvent),
      front.validity = .valid → front.event = .momentarySwitchEvent e →
      e.modifierFlag = false → e.pointingButton = false → front.eventType = .keyDown →
      let s := Machine.run manipulate (Stage.initial world) before
      let manager := s.output.queue.modifierFlagManager
      let p := s.manipulator.dispatchModifierKeyEvent manager front.eventTimeStamp.timeStamp
      (manipulate s front).manipulator.queue =
        (if e.valid && !p.keyEventDispatcher.keyEventExists e.usagePair then
          p.queue.emplaceBackKeyEvent e.usagePair .keyDown front.eventTimeStamp.timeStamp
        else p.queue) ∧
      (manipulate s front).manipulator.queue.keyboardInput.modifiers =
        p.queue.keyboardInput.modifiers ∧
      (∀ m r, makeHidReportModifier m = some r →
        (HidReport.modifierExists p.queue.keyboardInput.modifiers r = true ↔
          manager.isPressed m = true)) ∧
      (e.valid = true → p.keyEventDispatcher.keyEventExists e.usagePair = false →
        e.usagePair.usagePage ∈ Queue.reportedPages →
        ∃ report, (manipulate s front).manipulator.queue.events = p.queue.events ++ [report] ∧
          report.Reports e.usagePair.usagePage
            (fun p' => p' = e.usagePair ∨ p.queue.reported p' = true) ∧
          ∀ input, report.value = .keyboardInput input →
            ∀ m r, makeHidReportModifier m = some r →
              (HidReport.modifierExists input.modifiers r = true ↔ manager.isPressed m = true))) ∧
    ∀ (before mid after : List Entry) (m : ModifierFlag) (down up : Entry),
      (∀ e ∈ mid, ∃ m, IsLazyModifier m e) → IsLazyModifier m down → IsLazyModifier m up →
      down.eventType = .keyDown → up.eventType = .keyUp → down.deviceId = up.deviceId →
      (Machine.run manipulate (Stage.initial world)
          (before ++ (down :: mid ++ [up]) ++ after)).manipulator.queue.events =
        (Machine.run manipulate (Stage.initial world)
          (before ++ mid ++ after)).manipulator.queue.events := by
  constructor
  · intro before front e hvalid hevent hmodifier hbutton hdown s manager p
    obtain ⟨hmodifiers, hqueue, hkeep⟩ := manipulate_keyDown sets (isCoherent_run sets world before)
      hvalid hevent hmodifier hbutton hdown
    have hpressed : ∀ m r, makeHidReportModifier m = some r →
        (HidReport.modifierExists p.queue.keyboardInput.modifiers r = true ↔
          manager.isPressed m = true) := by
      intro m r hr
      obtain ⟨m', hm', hr'⟩ := KeyEventDispatcher.exists_makeHidReportModifier r
      obtain rfl := KeyEventDispatcher.eq_of_makeHidReportModifier hr' hr
      rw [hmodifiers, KeyEventDispatcher.modifierExists_makeHidReportModifiers sets,
        KeyEventDispatcher.mem_makeHidReportModifiers_iff manager hm' hr]
    refine ⟨hqueue, hkeep, hpressed, fun hvalid' hnew hpage => ?_⟩
    obtain ⟨report, hevents, hreports, hinput⟩ := p.queue.exists_report_keyDown sets
      (KeyEventDispatcher.modifierBit_eq_none hmodifier) hpage front.eventTimeStamp.timeStamp
    refine ⟨report, ?_, hreports, fun input hvalue => ?_⟩
    · rw [hqueue, if_pos (by rw [hvalid', hnew]; rfl), hevents]
    · rw [hinput input hvalue]
      exact hpressed
  · intro before mid after m down up hmid hdown hup downType upType device
    have hsame := samePosts_run (samePosts_insert (agree_self_run world before) hmid hdown hup
      downType upType device) after
    simp only [Machine.run_append] at hsame ⊢
    rw [hsame.manipulator]

end PostEventToVirtualDevices

namespace PostEventToVirtualDevices

/-- A key of the keyboard page goes down. -/
def keyDown (usage : ℤ) (timeStamp : AbsoluteTime) : Entry :=
  let e : Karabiner.Event := .momentarySwitchEvent ⟨⟨UsagePage.keyboardOrKeypad, usage⟩⟩
  ⟨1, ⟨timeStamp, 0⟩, e, .keyDown, e, .original, false, .valid⟩

/-- `run_reports` with finite sets as the containers: left shift is pressed, the key a follows. -/
theorem run_reports_finsets :
    letI := HidReport.finsets
    letI : MachTimebase := ⟨1, 1⟩
    letI := Exprtk.singleVariable
    letI : SystemClock := ⟨fun _ => 0⟩
    let s := Machine.run manipulate (Stage.initial .initial)
      [keyDown Usage.KeyboardOrKeypad.keyboardLeftShift 0]
    let manager := s.output.queue.modifierFlagManager
    let front := keyDown Usage.KeyboardOrKeypad.keyboardA 1
    let a : UsagePair := ⟨UsagePage.keyboardOrKeypad, Usage.KeyboardOrKeypad.keyboardA⟩
    let p := s.manipulator.dispatchModifierKeyEvent manager front.eventTimeStamp.timeStamp
    ∃ report, (manipulate s front).manipulator.queue.events = p.queue.events ++ [report] ∧
      report.Reports UsagePage.keyboardOrKeypad (fun p' => p' = a ∨ p.queue.reported p' = true) ∧
      ∀ input, report.value = .keyboardInput input →
        ∀ m r, makeHidReportModifier m = some r →
          (HidReport.modifierExists input.modifiers r = true ↔ manager.isPressed m = true) :=
  ((@run_reports HidReport.finsets ⟨1, 1⟩ .singleVariable ⟨fun _ => 0⟩
    HidReport.finsets_containersAreSets (@World.initial .singleVariable)).1
      [keyDown Usage.KeyboardOrKeypad.keyboardLeftShift 0]
      (keyDown Usage.KeyboardOrKeypad.keyboardA 1)
      ⟨⟨UsagePage.keyboardOrKeypad, Usage.KeyboardOrKeypad.keyboardA⟩⟩ rfl rfl (by decide)
      (by decide) rfl).2.2.2 rfl rfl (by decide)

end PostEventToVirtualDevices

end Karabiner
