import Karabiner.Library.History
import Karabiner.Manipulator.PostEventToVirtualDevices.FinalStage

/-!
# The buttons of the virtual mouse

The final stage with the timer of the mouse key handler, which reads the buttons from the output
queue.  The motion of a report of the timer, and whether the timer posts one, is up to the input.

* `ReportsButtons` — what one step does to the report queue: the pointing reports it appends carry
  the buttons of the output queue, and without a report the buttons have not changed.
* `holds_step` — what one step does to a button of a device.
* `run_pointingButtons` — **the buttons held by the virtual mouse**, in every reachable state.
-/

namespace Karabiner

namespace PostEventToVirtualDevices

variable [HidReport]

/-! ### Pointing reports -/

/-- The pointing reports among the events of a queue. -/
def pointingReports (events : List Event) : List PointingInput :=
  events.filterMap fun e =>
    match e.value with
    | .pointingInput report => some report
    | _ => none

namespace Queue

/-- The events that the second queue has and the first has not. -/
def appended (q q' : Queue) : List Event := q'.events.drop q.events.length

/-- Events are appended to the queue, among them exactly these pointing reports. -/
def Appends (q q' : Queue) (reports : List PointingInput) : Prop :=
  ∃ events, q'.events = q.events ++ events ∧ pointingReports events = reports

theorem Appends.refl (q : Queue) : q.Appends q [] := ⟨[], by simp, rfl⟩

theorem Appends.trans {q q' q'' : Queue} {reports reports' : List PointingInput}
    (h : q.Appends q' reports) (h' : q'.Appends q'' reports') :
    q.Appends q'' (reports ++ reports') := by
  obtain ⟨events, hevents, rfl⟩ := h
  obtain ⟨events', hevents', rfl⟩ := h'
  refine ⟨events ++ events', ?_, List.filterMap_append⟩
  rw [hevents', hevents, List.append_assoc]

/-- The reports can be read off what the queue has more than before. -/
theorem Appends.pointingReports_appended {q q' : Queue} {reports : List PointingInput}
    (h : q.Appends q' reports) : pointingReports (q.appended q') = reports := by
  obtain ⟨events, hevents, rfl⟩ := h
  rw [appended, hevents, List.drop_left]

variable [MachTimebase]

omit [MachTimebase] in
/-- A keyboard report is no pointing report. -/
theorem appends_emplaceBackReport (q : Queue) (usagePair : UsagePair) (eventType : EventType)
    (timeStamp : AbsoluteTime) :
    q.Appends (q.emplaceBackReport usagePair eventType timeStamp) [] := by
  unfold emplaceBackReport
  dsimp only
  split_ifs
  case neg => exact .refl q
  all_goals exact ⟨_, rfl, rfl⟩

/-- A key event is no pointing report. -/
theorem appends_emplaceBackKeyEvent (q : Queue) (usagePair : UsagePair) (eventType : EventType)
    (timeStamp : AbsoluteTime) :
    q.Appends (q.emplaceBackKeyEvent usagePair eventType timeStamp) [] :=
  appends_emplaceBackReport (q.adjustTimeStamp timeStamp eventType _).2 usagePair eventType _

/-- A pointing report is the one report that is appended. -/
theorem appends_emplaceBackPointingInput (q : Queue) (report : PointingInput)
    (eventType : EventType) (timeStamp : AbsoluteTime) :
    q.Appends (q.emplaceBackPointingInput report eventType timeStamp) [report] :=
  ⟨_, rfl, rfl⟩

end Queue

variable [MachTimebase]

namespace KeyEventDispatcher

/-! ### The dispatcher posts no pointing report -/

/-- The key_down of a key appends keyboard reports only. -/
theorem appends_dispatchKeyDownEvent (d : KeyEventDispatcher) (deviceId : DeviceId)
    (usagePair : UsagePair) (q : Queue) (timeStamp : AbsoluteTime) :
    q.Appends (d.dispatchKeyDownEvent deviceId usagePair q timeStamp).2 [] := by
  unfold dispatchKeyDownEvent
  split_ifs
  · exact q.appends_emplaceBackKeyEvent _ _ _
  · exact .refl q

theorem appends_dispatchKeyUpEvent (d : KeyEventDispatcher) (usagePair : UsagePair) (q : Queue)
    (timeStamp : AbsoluteTime) : q.Appends (d.dispatchKeyUpEvent usagePair q timeStamp).2 [] := by
  unfold dispatchKeyUpEvent
  split_ifs
  · exact q.appends_emplaceBackKeyEvent _ _ _
  · exact .refl q

/-- A modifier is reported to the keyboard. -/
theorem appends_enqueueModifier (d : KeyEventDispatcher) (m : ModifierFlag) (eventType : EventType)
    (q : Queue) (timeStamp : AbsoluteTime) :
    q.Appends (d.enqueueModifier m eventType q timeStamp).2 [] := by
  unfold enqueueModifier
  split_ifs
  · have hup := d.appends_dispatchKeyUpEvent
      (MomentarySwitchEvent.ofModifierFlag .capsLock).usagePair q timeStamp
    exact (hup.trans (Queue.appends_emplaceBackKeyEvent _ _ .keyDown timeStamp)).trans
      (Queue.appends_emplaceBackKeyEvent _ _ .keyUp timeStamp)
  · dsimp only
    split_ifs
    · exact q.appends_emplaceBackKeyEvent _ _ _
    · exact .refl q

theorem appends_dispatchModifierFlag (manager : ModifierFlagManager) (timeStamp : AbsoluteTime)
    (s : KeyEventDispatcher × Queue) (m : ModifierFlag) :
    s.2.Appends (dispatchModifierFlag manager timeStamp s m).2 [] := by
  unfold dispatchModifierFlag
  dsimp only
  split
  · exact appends_enqueueModifier _ m .keyDown s.2 timeStamp
  · exact appends_enqueueModifier _ m .keyUp s.2 timeStamp
  · exact .refl s.2

theorem appends_dispatchModifierKeyEvent (d : KeyEventDispatcher) (manager : ModifierFlagManager)
    (q : Queue) (timeStamp : AbsoluteTime) :
    q.Appends (d.dispatchModifierKeyEvent manager q timeStamp).2 [] := by
  unfold dispatchModifierKeyEvent
  generalize dispatchedModifierFlags = flags
  suffices h : ∀ s : KeyEventDispatcher × Queue,
      s.2.Appends (flags.foldl (dispatchModifierFlag manager timeStamp) s).2 [] from h (d, q)
  induction flags with
  | nil => exact fun s => .refl s.2
  | cons m flags ih =>
      intro s
      exact (appends_dispatchModifierFlag manager timeStamp s m).trans (ih _)

/-- The keys that a device leaves pressed are released on the keyboard. -/
theorem appends_dispatchKeyUpEventsByDeviceId (d : KeyEventDispatcher) (deviceId : DeviceId)
    (q : Queue) (timeStamp : AbsoluteTime) :
    q.Appends (d.dispatchKeyUpEventsByDeviceId deviceId q timeStamp).2 [] := by
  unfold dispatchKeyUpEventsByDeviceId
  generalize d.pressedKeys.length = fuel
  suffices h : ∀ s : KeyEventDispatcher × Queue,
      s.2.Appends (dispatchKeyUpEventsByDeviceIdFrom deviceId timeStamp fuel s).2 [] from h (d, q)
  induction fuel with
  | zero => exact fun s => .refl s.2
  | succ fuel ih =>
      intro s
      rw [dispatchKeyUpEventsByDeviceIdFrom]
      cases s.1.pressedKeys.find? fun k => k.1 = deviceId with
      | none => exact .refl s.2
      | some k => exact (s.1.appends_dispatchKeyUpEvent k.2 s.2 timeStamp).trans (ih _)

end KeyEventDispatcher

/-! ### What a step reports -/

/-- From one state of the manipulator to another, with the buttons of the output queue at the end:
the pointing reports that are appended carry these buttons, and so does `pressed_buttons_` once
there is a report. -/
structure ReportsButtons (buttons : HidReport.Buttons) (p p' : PostEventToVirtualDevices)
    (reports : List PointingInput) : Prop where
  appends : p.queue.Appends p'.queue reports
  carry : ∀ report ∈ reports, report.buttons = buttons
  pressed : p'.pressedButtons = p.pressedButtons ∨ p'.pressedButtons = buttons
  silent : reports = [] → p'.pressedButtons = p.pressedButtons

namespace ReportsButtons

variable {buttons : HidReport.Buttons} {p p' p'' : PostEventToVirtualDevices}
  {reports reports' : List PointingInput}

omit [MachTimebase] in
/-- Other reports leave the buttons alone. -/
theorem of_appends (happends : p.queue.Appends p'.queue [])
    (hpressed : p'.pressedButtons = p.pressedButtons) : ReportsButtons buttons p p' [] :=
  ⟨happends, by simp, .inl hpressed, fun _ => hpressed⟩

omit [MachTimebase] in
theorem trans (h : ReportsButtons buttons p p' reports)
    (h' : ReportsButtons buttons p' p'' reports') :
    ReportsButtons buttons p p'' (reports ++ reports') where
  appends := h.appends.trans h'.appends
  carry report hmem := (List.mem_append.mp hmem).elim (h.carry report) (h'.carry report)
  pressed := by
    rcases h'.pressed with hpressed | hpressed
    · exact hpressed ▸ h.pressed
    · exact .inr hpressed
  silent hnil := by
    obtain ⟨hnil, hnil'⟩ := List.append_eq_nil_iff.mp hnil
    exact (h'.silent hnil').trans (h.silent hnil)

end ReportsButtons

/-- The reports of the modifiers leave the buttons alone. -/
theorem reportsButtons_dispatchModifierKeyEvent (buttons : HidReport.Buttons)
    (p : PostEventToVirtualDevices)
    (manager : ModifierFlagManager) (timeStamp : AbsoluteTime) :
    ReportsButtons buttons p (p.dispatchModifierKeyEvent manager timeStamp) [] :=
  .of_appends (KeyEventDispatcher.appends_dispatchModifierKeyEvent _ _ _ _) rfl

/-- A report of the buttons that are still pressed. -/
theorem reportsButtons_releaseButtons (p : PostEventToVirtualDevices)
    (manager : PointingButtonManager) (timeStamp : AbsoluteTime) :
    ∃ reports, ReportsButtons (makeHidReportButtons manager) p (p.releaseButtons manager timeStamp)
        reports ∧
      (p.releaseButtons manager timeStamp).pressedButtons = makeHidReportButtons manager := by
  unfold releaseButtons
  dsimp only
  split_ifs with hchanged
  · exact ⟨_, ⟨p.queue.appends_emplaceBackPointingInput _ _ _, by simp, .inr rfl, nofun⟩, rfl⟩
  · exact ⟨[], .of_appends (.refl _) rfl, not_not.mp hchanged⟩

omit [HidReport] [MachTimebase] in
/-- An entry of something else than a pointing button changes no button. -/
theorem updatePointingButtonManager_of_ne {front : Entry}
    (h : ∀ e, front.event = .momentarySwitchEvent e → e.valid = true → e.pointingButton = false)
    (manager : PointingButtonManager) :
    Karabiner.Queue.updatePointingButtonManager manager front = manager := by
  unfold Karabiner.Queue.updatePointingButtonManager
  split
  next e hevent =>
      by_cases hbutton : e.pointingButton = true
      · -- Only a button without a usage is not valid.
        have hinvalid : e.valid = false := by
          by_contra hvalid
          exact absurd hbutton (by simp [h e hevent (by simpa using hvalid)])
        have hpage : e.usagePair.usagePage = UsagePage.button := of_decide_eq_true hbutton
        have husage : e.usagePair.usage = Usage.undefined := by
          simpa [MomentarySwitchEvent.valid, hpage, UsagePage.button, UsagePage.undefined]
            using hinvalid
        rw [if_pos hbutton, PointingButtonManager.pushBackActivePointingButton, if_pos husage]
      · rw [if_neg hbutton]
  next => rfl

/-- What an entry itself posts: a report of the buttons if it can have changed them. -/
theorem reportsButtons_postEvent (p : PostEventToVirtualDevices) (front : Entry)
    (manager : PointingButtonManager) :
    ∃ reports, ReportsButtons (makeHidReportButtons manager) p (p.postEvent front manager) reports ∧
      ((p.postEvent front manager).pressedButtons = makeHidReportButtons manager ∨
        (p.postEvent front manager).pressedButtons = p.pressedButtons ∧
          ∀ m, Karabiner.Queue.updatePointingButtonManager m front = m) := by
  have hreport : ∃ reports, ReportsButtons (makeHidReportButtons manager) p
      (p.postPointingInputReport front manager) reports ∧
        (p.postPointingInputReport front manager).pressedButtons =
          makeHidReportButtons manager := by
    refine ⟨_, ⟨p.queue.appends_emplaceBackPointingInput _ _ _, ?_, .inr rfl, nofun⟩, rfl⟩
    intro report hmem
    obtain rfl := List.mem_singleton.mp hmem
    split <;> rfl
  have hother {p' : PostEventToVirtualDevices} (happends : p.queue.Appends p'.queue [])
      (hpressed : p'.pressedButtons = p.pressedButtons)
      (h : ∀ e, front.event = .momentarySwitchEvent e → e.valid = true → e.pointingButton = false) :
      ∃ reports, ReportsButtons (makeHidReportButtons manager) p p' reports ∧
        (p'.pressedButtons = makeHidReportButtons manager ∨ p'.pressedButtons = p.pressedButtons ∧
          ∀ m, Karabiner.Queue.updatePointingButtonManager m front = m) :=
    ⟨[], .of_appends happends hpressed, .inr ⟨hpressed, updatePointingButtonManager_of_ne h⟩⟩
  unfold postEvent
  dsimp only
  split
  case h_1 e hevent =>
      have hsame : ∀ e', front.event = .momentarySwitchEvent e' → e' = e := fun e' he' =>
        Karabiner.Event.momentarySwitchEvent.inj (he'.symm.trans hevent)
      split_ifs with hvalid hbutton hmodifier
      · refine hother (.refl _) rfl fun e' he' hvalid' => ?_
        rw [hsame e' he'] at hvalid'
        simp [hvalid'] at hvalid
      · exact hreport.imp fun _ => And.imp_right Or.inl
      · refine hother (.refl _) rfl fun e' he' _ => ?_
        rw [hsame e' he']
        simpa using hbutton
      · have hnot : ∀ e', front.event = .momentarySwitchEvent e' → e'.valid = true →
            e'.pointingButton = false := by
          intro e' he' _
          rw [hsame e' he']
          simpa using hbutton
        split
        · exact hother (KeyEventDispatcher.appends_dispatchKeyDownEvent _ _ _ _ _) rfl hnot
        · exact hother (KeyEventDispatcher.appends_dispatchKeyUpEvent _ _ _ _) rfl hnot
        · exact hother (.refl _) rfl hnot
  case h_2 => exact hreport.imp fun _ => And.imp_right Or.inl
  case h_3 hevent _ => exact hother ⟨_, rfl, rfl⟩ rfl (by simp [hevent])
  case h_4 hevent _ => exact hother ⟨_, rfl, rfl⟩ rfl (by simp [hevent])
  case h_5 hevent _ => exact hother (.refl _) rfl (by simp [hevent])
  case h_6 hevent _ => exact hother (.refl _) rfl (by simp [hevent])
  case h_7 hevent _ => exact hother ⟨_, rfl, rfl⟩ rfl (by simp [hevent])
  case h_8 hevent =>
      split
      · exact hother (KeyEventDispatcher.appends_dispatchKeyUpEvent _ _ _ _) rfl (by simp [hevent])
      · exact hother (.refl _) rfl (by simp [hevent])
  case h_9 hevent _ _ _ _ _ _ _ =>
      exact hother (.refl _) rfl fun e he => absurd he (hevent e)

variable [Exprtk] [SystemClock]

/-! ### The machine -/

/-- `make_hid_report_buttons` of the output queue. -/
def Stage.buttons (s : Stage) : HidReport.Buttons :=
  makeHidReportButtons s.output.queue.pointingButtonManager

/-- What may happen to the final stage with the timer of its mouse key handler, which posts a report
with some motion, or nothing. -/
inductive ButtonInput
  | processFront (front : Entry)
  | mouseKeyTimer (motion : Option PointingMotion) (timeStamp : AbsoluteTime)
  | postEvents (count : ℕ)
  | clearQueue
  | outside (events : List Entry) (timeStampDelay : AbsoluteTime) (world : World)

/-- The report that `mouse_key_handler::post_event` posts, with the buttons of the output queue. -/
def mouseKeyReport (s : Stage) (motion : PointingMotion) : PointingInput where
  buttons := s.buttons
  x := motion.x
  y := motion.y
  verticalWheel := motion.verticalWheel
  horizontalWheel := motion.horizontalWheel

/-- One step. -/
def stepButtons (s : Stage) : ButtonInput → Stage
  | .processFront front => step s (.processFront front)
  | .mouseKeyTimer none _ => s
  | .mouseKeyTimer (some motion) timeStamp =>
    step s (.mouseKeyTimer (mouseKeyReport s motion) timeStamp)
  | .postEvents count => step s (.postEvents count)
  | .clearQueue => step s .clearQueue
  | .outside events timeStampDelay world => step s (.outside events timeStampDelay world)

/-- One step with the pointing reports that it appends. -/
def stepReports (s : Stage) (i : ButtonInput) : Stage × List PointingInput :=
  (stepButtons s i,
    pointingReports (s.manipulator.queue.appended (stepButtons s i).manipulator.queue))

/-! ### The buttons of the output queue -/

omit [HidReport] [MachTimebase] in
/-- The device lets go of everything: its keys and buttons are released, or it is ungrabbed. -/
def IsRelease (event : Karabiner.Event) : Prop :=
  event = .deviceKeysAndPointingButtonsAreReleased ∨ event = .deviceUngrabbed

omit [HidReport] [MachTimebase] in
/-- Copying something else than a switch changes no button. -/
theorem pointingButtonManager_copyFront {front : Entry}
    (hevent : ∀ e, front.event ≠ .momentarySwitchEvent e) (output : Output) :
    (copyFront front output).queue.pointingButtonManager = output.queue.pointingButtonManager := by
  unfold copyFront
  split_ifs
  · exact updatePointingButtonManager_of_ne (fun e he => absurd he (hevent e)) _
  · rfl

/-- A release erases the buttons of its device. -/
theorem pointingButtonManager_of_isRelease (s : Stage) {front : Entry}
    (hrelease : IsRelease front.event) :
    (processFront s front).output.queue.pointingButtonManager =
      s.output.queue.pointingButtonManager.eraseAllActivePointingButtons front.deviceId := by
  rcases hrelease with hevent | hevent <;> unfold processFront <;> rw [hevent] <;>
    exact pointingButtonManager_copyFront (by simp [hevent]) _

/-- Every other entry changes the buttons only by being pushed. -/
theorem pointingButtonManager_of_not_isRelease (s : Stage) {front : Entry}
    (hrelease : ¬IsRelease front.event) :
    (processFront s front).output.queue.pointingButtonManager =
      if front.validity = .valid then
        Karabiner.Queue.updatePointingButtonManager s.output.queue.pointingButtonManager front
      else s.output.queue.pointingButtonManager := by
  have hpush (s : Stage) : (manipulate s front).output.queue.pointingButtonManager =
      if front.validity = .valid then
        Karabiner.Queue.updatePointingButtonManager s.output.queue.pointingButtonManager front
      else s.output.queue.pointingButtonManager := by
    unfold manipulate
    cases front.validity <;> rfl
  have hcopy (output : Output) : (copyFront front output).queue.pointingButtonManager =
      if front.validity = .valid then
        Karabiner.Queue.updatePointingButtonManager output.queue.pointingButtonManager front
      else output.queue.pointingButtonManager := by
    unfold copyFront
    cases front.validity <;> rfl
  unfold processFront
  cases hevent : front.event with
  | deviceKeysAndPointingButtonsAreReleased => exact absurd (.inl hevent) hrelease
  | deviceUngrabbed => exact absurd (.inr hevent) hrelease
  | _ => first | exact hcopy _ | exact hpush _

/-! ### What one step does -/

/-- An entry that `manipulate` takes reports the buttons if it changes them. -/
theorem reportsButtons_manipulate {s : Stage} (h : s.manipulator.pressedButtons = s.buttons)
    (front : Entry) :
    ∃ reports, ReportsButtons (manipulate s front).buttons s.manipulator
        (manipulate s front).manipulator reports ∧
      (manipulate s front).manipulator.pressedButtons = (manipulate s front).buttons := by
  unfold manipulate
  by_cases hvalid : front.validity = .invalid
  · rw [if_pos hvalid]
    exact ⟨[], .of_appends (.refl _) rfl, h⟩
  rw [if_neg hvalid]
  let output := s.output.emplaceBackEntry front
  let buttons := makeHidReportButtons output.queue.pointingButtonManager
  let p₁ := s.manipulator.synchronizeCapsLock s.output.queue.modifierFlagManager front
  let p₂ := p₁.dispatchBefore s.output.queue.modifierFlagManager front
  let p₃ := p₂.postEvent front output.queue.pointingButtonManager
  have h₁ : ReportsButtons buttons s.manipulator p₁ [] ∧
      p₁.pressedButtons = s.manipulator.pressedButtons := by
    have hqueue : p₁.queue = s.manipulator.queue ∧
        p₁.pressedButtons = s.manipulator.pressedButtons := by
      simp only [p₁, synchronizeCapsLock]
      split
      · split_ifs <;> exact ⟨rfl, rfl⟩
      · exact ⟨rfl, rfl⟩
    exact ⟨.of_appends (hqueue.1 ▸ .refl _) hqueue.2, hqueue.2⟩
  have hdispatch (c : Bool) (p : PostEventToVirtualDevices) (manager : ModifierFlagManager)
      (t : AbsoluteTime) :
      ReportsButtons buttons p (if c then p.dispatchModifierKeyEvent manager t else p) [] ∧
        (if c then p.dispatchModifierKeyEvent manager t else p).pressedButtons =
          p.pressedButtons := by
    split_ifs
    · exact ⟨reportsButtons_dispatchModifierKeyEvent buttons p manager t, rfl⟩
    · exact ⟨.of_appends (.refl _) rfl, rfl⟩
  obtain ⟨h₂, hpressed₂⟩ := hdispatch (p₁.dispatchesBefore front) p₁
    s.output.queue.modifierFlagManager front.eventTimeStamp.timeStamp
  obtain ⟨reports, h₃, hpressed₃⟩ :=
    reportsButtons_postEvent p₂ front output.queue.pointingButtonManager
  obtain ⟨h₄, hpressed₄⟩ := hdispatch (isModifierKeyEvent front && !front.isLazy) p₃
    output.queue.modifierFlagManager front.eventTimeStamp.timeStamp
  refine ⟨_, ((h₁.1.trans h₂).trans h₃).trans h₄, hpressed₄.trans ?_⟩
  rcases hpressed₃ with hpressed₃ | ⟨hpressed₃, hkeep⟩
  · exact hpressed₃
  · have hbuttons : buttons = s.buttons :=
      congrArg makeHidReportButtons (hkeep _)
    exact (hpressed₃.trans (hpressed₂.trans h₁.2)).trans (h.trans hbuttons.symm)

omit [MachTimebase] [Exprtk] [SystemClock] in
/-- Mouse keys are no buttons. -/
theorem reportsButtons_eraseMouseKeys (buttons : HidReport.Buttons) (p : PostEventToVirtualDevices)
    (deviceId : DeviceId) : ReportsButtons buttons p (p.eraseMouseKeys deviceId) [] :=
  .of_appends (.refl _) rfl

omit [Exprtk] [SystemClock] in
/-- Afterwards the buttons reported are those of the manager. -/
theorem reportsButtons_handleReleased (p : PostEventToVirtualDevices) (front : Entry)
    (queue : Karabiner.Queue) :
    let p' := (p.handleDeviceKeysAndPointingButtonsAreReleasedEvent front queue).1
    ∃ reports, ReportsButtons (makeHidReportButtons queue.pointingButtonManager) p p' reports ∧
      p'.pressedButtons = makeHidReportButtons queue.pointingButtonManager := by
  let timeStamp := front.eventTimeStamp.timeStamp
  let p₁ := p.dispatchModifierKeyEvent queue.modifierFlagManager timeStamp
  have hmodifiers := reportsButtons_dispatchModifierKeyEvent
    (makeHidReportButtons queue.pointingButtonManager) p queue.modifierFlagManager timeStamp
  obtain ⟨reports, hreports, hpressed⟩ :=
    reportsButtons_releaseButtons p₁ queue.pointingButtonManager timeStamp
  have hmouseKeys := reportsButtons_eraseMouseKeys
    (makeHidReportButtons queue.pointingButtonManager)
    (p₁.releaseButtons queue.pointingButtonManager timeStamp) front.deviceId
  exact ⟨_, (hmodifiers.trans hreports).trans hmouseKeys, hpressed⟩

omit [Exprtk] [SystemClock] in
theorem reportsButtons_handleDeviceUngrabbedEvent (p : PostEventToVirtualDevices)
    (deviceId : DeviceId) (queue : Karabiner.Queue) (timeStamp : AbsoluteTime) :
    let p' := p.handleDeviceUngrabbedEvent deviceId queue timeStamp
    ∃ reports, ReportsButtons (makeHidReportButtons queue.pointingButtonManager) p p' reports ∧
      p'.pressedButtons = makeHidReportButtons queue.pointingButtonManager := by
  let buttons := makeHidReportButtons queue.pointingButtonManager
  let p₁ := p.dispatched
    (p.keyEventDispatcher.dispatchKeyUpEventsByDeviceId deviceId p.queue timeStamp)
  let p₂ := p₁.releaseButtons queue.pointingButtonManager timeStamp
  let p₃ := p₂.dispatchModifierKeyEvent queue.modifierFlagManager timeStamp
  have hkeys : ReportsButtons buttons p p₁ [] :=
    .of_appends (KeyEventDispatcher.appends_dispatchKeyUpEventsByDeviceId _ _ _ _) rfl
  obtain ⟨reports, hreports, hpressed⟩ :=
    reportsButtons_releaseButtons p₁ queue.pointingButtonManager timeStamp
  have hmodifiers : ReportsButtons buttons p₂ p₃ [] :=
    reportsButtons_dispatchModifierKeyEvent buttons p₂ _ _
  have hmouseKeys := reportsButtons_eraseMouseKeys buttons p₃ deviceId
  exact ⟨_, ((hkeys.trans hreports).trans hmodifiers).trans hmouseKeys, hpressed⟩

omit [Exprtk] [SystemClock] in
/-- A pointing event of the event tap posts no report of its own. -/
theorem reportsButtons_handleEventTap (buttons : HidReport.Buttons) (p : PostEventToVirtualDevices)
    (front : Entry) (queue : Karabiner.Queue) :
    ReportsButtons buttons p (p.handlePointingDeviceEventFromEventTap front queue) [] := by
  have hidle : ReportsButtons buttons p
      (if p.isIdle then
        p.dispatchModifierKeyEvent queue.modifierFlagManager front.eventTimeStamp.timeStamp
      else p) [] := by
    split_ifs
    · exact reportsButtons_dispatchModifierKeyEvent _ _ _ _
    · exact .of_appends (.refl _) rfl
  unfold handlePointingDeviceEventFromEventTap
  cases front.eventType with
  | keyDown => exact hidle
  | single => exact hidle
  | keyUp => exact .of_appends (.refl _) rfl

/-- An entry that is manipulated, or copied and no switch. -/
theorem reportsButtons_of_manipulate_or_copyFront {s : Stage}
    (h : s.manipulator.pressedButtons = s.buttons) {front : Entry}
    (hprocess : processFront s front = manipulate s front ∨
      processFront s front = { s with output := copyFront front s.output } ∧
        ∀ e, front.event ≠ .momentarySwitchEvent e) :
    ∃ reports, ReportsButtons (processFront s front).buttons s.manipulator
        (processFront s front).manipulator reports ∧
      (processFront s front).manipulator.pressedButtons = (processFront s front).buttons := by
  rcases hprocess with hprocess | ⟨hprocess, hother⟩
  · rw [hprocess]
    exact reportsButtons_manipulate h front
  · have hbuttons : (processFront s front).buttons = s.buttons := by
      rw [hprocess]
      exact congrArg makeHidReportButtons
        (pointingButtonManager_copyFront hother s.output)
    rw [hbuttons, hprocess]
    exact ⟨[], .of_appends (.refl _) rfl, h⟩

/-- Every entry reports the buttons if it changes them. -/
theorem reportsButtons_processFront {s : Stage} (h : s.manipulator.pressedButtons = s.buttons)
    (front : Entry) :
    ∃ reports, ReportsButtons (processFront s front).buttons s.manipulator
        (processFront s front).manipulator reports ∧
      (processFront s front).manipulator.pressedButtons = (processFront s front).buttons := by
  cases hevent : front.event with
  | deviceKeysAndPointingButtonsAreReleased =>
      let queue : Karabiner.Queue :=
        { s.output.queue with
          modifierFlagManager :=
            s.output.queue.modifierFlagManager.eraseAllActiveModifierFlagsExceptLockAndSticky
              front.deviceId
          pointingButtonManager :=
            s.output.queue.pointingButtonManager.eraseAllActivePointingButtons front.deviceId }
      have hmanipulator : (processFront s front).manipulator =
          (s.manipulator.handleDeviceKeysAndPointingButtonsAreReleasedEvent front queue).1 := by
        unfold processFront
        rw [hevent]
        rfl
      have hbuttons : (processFront s front).buttons =
          makeHidReportButtons queue.pointingButtonManager :=
        congrArg makeHidReportButtons
          (pointingButtonManager_of_isRelease s (.inl hevent))
      rw [hmanipulator, hbuttons]
      exact reportsButtons_handleReleased s.manipulator front queue
  | deviceUngrabbed =>
      let queue : Karabiner.Queue :=
        { s.output.queue with
          modifierFlagManager :=
            s.output.queue.modifierFlagManager.eraseAllActiveModifierFlags front.deviceId
          pointingButtonManager :=
            s.output.queue.pointingButtonManager.eraseAllActivePointingButtons front.deviceId }
      have hmanipulator : (processFront s front).manipulator =
          s.manipulator.handleDeviceUngrabbedEvent front.deviceId queue
            front.eventTimeStamp.timeStamp := by
        unfold processFront
        rw [hevent]
      have hbuttons : (processFront s front).buttons =
          makeHidReportButtons queue.pointingButtonManager :=
        congrArg makeHidReportButtons
          (pointingButtonManager_of_isRelease s (.inr hevent))
      rw [hmanipulator, hbuttons]
      exact reportsButtons_handleDeviceUngrabbedEvent _ _ _ _
  | pointingDeviceEventFromEventTap =>
      have hprocess : processFront s front =
          ⟨s.manipulator.handlePointingDeviceEventFromEventTap front s.output.queue,
            copyFront front s.output⟩ := by
        unfold processFront
        rw [hevent]
      have hbuttons : (processFront s front).buttons = s.buttons := by
        rw [hprocess]
        exact congrArg makeHidReportButtons
          (pointingButtonManager_copyFront (by simp [hevent]) s.output)
      have htap := reportsButtons_handleEventTap s.buttons s.manipulator front s.output.queue
      rw [hbuttons, hprocess]
      exact ⟨[], htap, (htap.silent rfl).trans h⟩
  | _ =>
      refine reportsButtons_of_manipulate_or_copyFront h ?_
      unfold processFront
      rw [hevent]
      first | exact .inl rfl | exact .inr ⟨rfl, nofun⟩

/-- **What one step reports**: the pointing reports that it appends carry the buttons of the output
queue, and without a report these have not changed. -/
theorem stepReports_spec {s : Stage} (h : s.manipulator.pressedButtons = s.buttons)
    (i : ButtonInput) :
    (stepButtons s i).manipulator.pressedButtons = (stepButtons s i).buttons ∧
      (∀ report ∈ (stepReports s i).2, report.buttons = (stepButtons s i).buttons) ∧
      ((stepReports s i).2 = [] → (stepButtons s i).buttons = s.buttons) := by
  have hdrop {q : Queue} (hq : q.events.length ≤ s.manipulator.queue.events.length) :
      pointingReports (s.manipulator.queue.appended q) = [] := by
    rw [Queue.appended, List.drop_eq_nil_of_le hq]
    rfl
  cases i with
  | processFront front =>
      obtain ⟨reports, hreports, hpressed⟩ := reportsButtons_processFront h front
      have happended : (stepReports s (.processFront front)).2 = reports :=
        hreports.appends.pointingReports_appended
      rw [happended]
      refine ⟨hpressed, hreports.carry, fun hnil => ?_⟩
      exact hpressed.symm.trans ((hreports.silent hnil).trans h)
  | mouseKeyTimer motion timeStamp =>
      cases motion with
      | none => exact ⟨h, by simp [stepReports, stepButtons, hdrop], fun _ => rfl⟩
      | some motion =>
          have happended : (stepReports s (.mouseKeyTimer (some motion) timeStamp)).2 =
              [mouseKeyReport s motion] :=
            (s.manipulator.queue.appends_emplaceBackPointingInput _ _ _).pointingReports_appended
          rw [happended]
          exact ⟨h, by simp [mouseKeyReport, stepButtons, step, Stage.buttons], nofun⟩
  | postEvents count =>
      have hnil : (stepReports s (.postEvents count)).2 = [] :=
        hdrop (by simp [stepButtons, step])
      rw [hnil]
      exact ⟨h, by simp, fun _ => rfl⟩
  | clearQueue =>
      have hnil : (stepReports s .clearQueue).2 = [] :=
        hdrop (by simp [stepButtons, step, Queue.clear])
      rw [hnil]
      exact ⟨h, by simp, fun _ => rfl⟩
  | outside events timeStampDelay world =>
      have hnil : (stepReports s (.outside events timeStampDelay world)).2 = [] := hdrop le_rfl
      rw [hnil]
      exact ⟨h, by simp, fun _ => rfl⟩

/-! ### A button of a device -/

namespace ButtonInput

omit [HidReport] [MachTimebase] [Exprtk] [SystemClock]

/-- A valid entry of the button arrives. -/
def Switches (p : UsagePair) (eventType : EventType) : ButtonInput → Prop
  | .processFront front =>
    front.validity = .valid ∧ front.event = .momentarySwitchEvent ⟨p⟩ ∧ front.eventType = eventType
  | _ => False

/-- The device presses the button. -/
def Presses (deviceId : DeviceId) (p : UsagePair) : ButtonInput → Prop
  | .processFront front => Switches p .keyDown (.processFront front) ∧ front.deviceId = deviceId
  | _ => False

/-- Some device releases the button. -/
def IsKeyUp (p : UsagePair) (i : ButtonInput) : Prop := i.Switches p .keyUp

/-- An entry of the button that is neither a press nor a release. -/
def IsSingle (p : UsagePair) (i : ButtonInput) : Prop := i.Switches p .single

/-- The device lets go of everything. -/
def Leaves (deviceId : DeviceId) : ButtonInput → Prop
  | .processFront front => IsRelease front.event ∧ front.deviceId = deviceId
  | _ => False

end ButtonInput

omit [HidReport] [MachTimebase] [Exprtk] [SystemClock] in
/-- What a valid entry changes for a button: `emplace_back_entry` takes everything but a `key_down`
of the button for a release. -/
theorem holds_updatePointingButtonManager (m : PointingButtonManager) (front : Entry)
    (deviceId : DeviceId) {p : UsagePair} (hpage : p.usagePage = UsagePage.button)
    (husage : p.usage ≠ Usage.undefined) :
    (Karabiner.Queue.updatePointingButtonManager m front).Holds deviceId p ↔
      (front.event = .momentarySwitchEvent ⟨p⟩ ∧ front.eventType = .keyDown ∧
          front.deviceId = deviceId) ∨
        m.Holds deviceId p ∧
          ¬(front.event = .momentarySwitchEvent ⟨p⟩ ∧ front.eventType ≠ .keyDown) := by
  unfold Karabiner.Queue.updatePointingButtonManager
  cases hevent : front.event with
  | momentarySwitchEvent e =>
      obtain ⟨p'⟩ := e
      simp only [Karabiner.Event.momentarySwitchEvent.injEq, MomentarySwitchEvent.mk.injEq,
        MomentarySwitchEvent.pointingButton, decide_eq_true_eq]
      by_cases hbutton : p'.usagePage = UsagePage.button
      · rw [if_pos hbutton, PointingButtonManager.holds_pushBack _ _ _ husage]
        by_cases hdown : front.eventType = .keyDown
        · simp only [hdown, if_true]
          tauto
        · simp only [hdown, if_false]
          tauto
      · have hne : p' ≠ p := by
          rintro rfl
          exact hbutton hpage
        simp [hbutton, hne]
  | _ => simp

omit [HidReport] [MachTimebase] [Exprtk] [SystemClock] in
/-- Whatever entry comes, only increases are stored. -/
theorem onlyIncreases_updatePointingButtonManager {m : PointingButtonManager}
    (h : m.OnlyIncreases) (front : Entry) :
    (Karabiner.Queue.updatePointingButtonManager m front).OnlyIncreases := by
  unfold Karabiner.Queue.updatePointingButtonManager
  split
  next e _ =>
      by_cases hbutton : e.pointingButton = true
      · rw [if_pos hbutton]
        exact PointingButtonManager.onlyIncreases_pushBack h _
      · rwa [if_neg hbutton]
  next => exact h

/-- **What one step does to a button of a device.** -/
theorem holds_step (s : Stage) (i : ButtonInput) (deviceId : DeviceId) {p : UsagePair}
    (hpage : p.usagePage = UsagePage.button) (husage : p.usage ≠ Usage.undefined) :
    (stepButtons s i).output.queue.pointingButtonManager.Holds deviceId p ↔
      i.Presses deviceId p ∨ s.output.queue.pointingButtonManager.Holds deviceId p ∧
        (¬i.IsKeyUp p ∧ ¬i.IsSingle p ∧ ¬i.Leaves deviceId) := by
  cases i with
  | processFront front =>
      by_cases hrelease : IsRelease front.event
      · have hswitch : front.event ≠ .momentarySwitchEvent ⟨p⟩ := by
          rcases hrelease with hevent | hevent <;> simp [hevent]
        rw [stepButtons, step, pointingButtonManager_of_isRelease s hrelease,
          PointingButtonManager.holds_eraseAll]
        simp [ButtonInput.Presses, ButtonInput.IsKeyUp, ButtonInput.IsSingle, ButtonInput.Switches,
          ButtonInput.Leaves, hswitch, hrelease, eq_comm]
      · rw [stepButtons, step, pointingButtonManager_of_not_isRelease s hrelease]
        by_cases hvalid : front.validity = .valid
        · rw [if_pos hvalid, holds_updatePointingButtonManager _ _ _ hpage husage]
          simp only [ButtonInput.Presses, ButtonInput.IsKeyUp, ButtonInput.IsSingle,
            ButtonInput.Switches, ButtonInput.Leaves, hvalid, hrelease]
          cases front.eventType <;> simp
        · rw [if_neg hvalid]
          simp [ButtonInput.Presses, ButtonInput.IsKeyUp, ButtonInput.IsSingle,
            ButtonInput.Switches, ButtonInput.Leaves, hvalid, hrelease]
  | mouseKeyTimer motion timeStamp =>
      have hkeep : (stepButtons s (.mouseKeyTimer motion timeStamp)).output = s.output := by
        cases motion <;> rfl
      rw [hkeep]
      simp [ButtonInput.Presses, ButtonInput.IsKeyUp, ButtonInput.IsSingle, ButtonInput.Switches,
        ButtonInput.Leaves]
  | postEvents count =>
      simp [stepButtons, step, ButtonInput.Presses, ButtonInput.IsKeyUp, ButtonInput.IsSingle,
        ButtonInput.Switches, ButtonInput.Leaves]
  | clearQueue =>
      simp [stepButtons, step, ButtonInput.Presses, ButtonInput.IsKeyUp, ButtonInput.IsSingle,
        ButtonInput.Switches, ButtonInput.Leaves]
  | outside events timeStampDelay world =>
      simp [stepButtons, step, ButtonInput.Presses, ButtonInput.IsKeyUp, ButtonInput.IsSingle,
        ButtonInput.Switches, ButtonInput.Leaves]

theorem onlyIncreases_step (s : Stage) (i : ButtonInput)
    (h : s.output.queue.pointingButtonManager.OnlyIncreases) :
    (stepButtons s i).output.queue.pointingButtonManager.OnlyIncreases := by
  cases i with
  | processFront front =>
      by_cases hrelease : IsRelease front.event
      · rw [stepButtons, step, pointingButtonManager_of_isRelease s hrelease]
        exact PointingButtonManager.onlyIncreases_eraseAll h _
      · rw [stepButtons, step, pointingButtonManager_of_not_isRelease s hrelease]
        split_ifs
        · exact onlyIncreases_updatePointingButtonManager h front
        · exact h
  | mouseKeyTimer motion timeStamp => cases motion <;> exact h
  | postEvents count => exact h
  | clearQueue => exact h
  | outside events timeStampDelay world => exact h

/-! ### Runs -/

/-- In every reachable state only increases are stored. -/
theorem onlyIncreases_run (world : World) (is : List ButtonInput) :
    (Machine.run stepButtons (Stage.initial world) is).output.queue.pointingButtonManager
      |>.OnlyIncreases :=
  Machine.run_invariant onlyIncreases_step (fun b hb => by cases hb) is

/-- A device holds a button since its last press, if nothing has let go of it. -/
theorem holds_run (world : World) (is : List ButtonInput) (deviceId : DeviceId) {p : UsagePair}
    (hpage : p.usagePage = UsagePage.button) (husage : p.usage ≠ Usage.undefined) :
    (Machine.run stepButtons (Stage.initial world) is).output.queue.pointingButtonManager.Holds
        deviceId p ↔
      History.Since (fun _ i => i.Presses deviceId p)
        (fun i => ¬i.IsKeyUp p ∧ ¬i.IsSingle p ∧ ¬i.Leaves deviceId) is := by
  induction is using List.reverseRecOn with
  | nil => simp [PointingButtonManager.Holds, Stage.initial]
  | append_singleton is i ih =>
      rw [Machine.run_concat, holds_step _ i deviceId hpage husage, ih, History.since_concat]

/-- The manipulator knows the buttons of the last report. -/
theorem pressedButtons_run (world : World) (is : List ButtonInput) :
    let s := Machine.run stepButtons (Stage.initial world) is
    s.manipulator.pressedButtons = s.buttons := by
  have keep (s : Stage) (i : ButtonInput) (h : s.manipulator.pressedButtons = s.buttons) :
      (stepButtons s i).manipulator.pressedButtons = (stepButtons s i).buttons :=
    (stepReports_spec h i).1
  exact Machine.run_invariant keep rfl is

/-- The last report of a run carries the buttons, and without any report no button was ever
pressed. -/
theorem getLast_reports_run (world : World) (is : List ButtonInput) :
    let buttons := (Machine.run stepButtons (Stage.initial world) is).buttons
    let reports := Machine.outputs stepReports (Stage.initial world) is
    (∀ report ∈ reports.getLast?, report.buttons = buttons) ∧
      (reports = [] → buttons = HidReport.noButtons) := by
  induction is using List.reverseRecOn with
  | nil => exact ⟨by simp, fun _ => rfl⟩
  | append_singleton is i ih =>
      obtain ⟨hlast, hnone⟩ := ih
      obtain ⟨-, hcarry, hsilent⟩ := stepReports_spec (pressedButtons_run world is) i
      have hreports : Machine.outputs stepReports (Stage.initial world) (is ++ [i]) =
          Machine.outputs stepReports (Stage.initial world) is ++
            (stepReports (Machine.run stepButtons (Stage.initial world) is) i).2 :=
        Machine.outputs_concat stepReports _ is i
      dsimp only
      rw [hreports, Machine.run_concat]
      by_cases hnil : (stepReports (Machine.run stepButtons (Stage.initial world) is) i).2 = []
      · rw [hnil, List.append_nil, hsilent hnil]
        exact ⟨hlast, hnone⟩
      · constructor
        · intro report hreport
          rw [List.getLast?_append_of_ne_nil _ hnil] at hreport
          exact hcarry report (List.mem_of_getLast? hreport)
        · intro h
          exact absurd (List.append_eq_nil_iff.mp h).2 hnil

/-- **The buttons held by the virtual mouse**, in every reachable state.  A button is pressed iff
some device pressed it and has kept it since: nothing let go of the button, and the device itself
was neither released nor ungrabbed.  An entry of a button that is neither `key_down` nor `key_up`
lets go of it like a `key_up`; without such entries of the button only the `key_up`s count.  The
reports follow. -/
theorem run_pointingButtons (sets : HidReport.ContainersAreSets) (world : World)
    (is : List ButtonInput) :
    let s := Machine.run stepButtons (Stage.initial world) is
    let reports := Machine.outputs stepReports (Stage.initial world) is
    (∀ n : ℕ, 1 ≤ n → n ≤ 32 →
      let button : UsagePair := ⟨UsagePage.button, n⟩
      (HidReport.buttonExists s.buttons n = true ↔
        ∃ deviceId, History.Since (fun _ i => i.Presses deviceId button)
          (fun i => ¬i.IsKeyUp button ∧ ¬i.IsSingle button ∧ ¬i.Leaves deviceId) is) ∧
      ((∀ i ∈ is, ¬i.IsSingle button) →
        (HidReport.buttonExists s.buttons n = true ↔
          ∃ deviceId, History.Since (fun _ i => i.Presses deviceId button)
            (fun i => ¬i.IsKeyUp button ∧ ¬i.Leaves deviceId) is))) ∧
    s.output.queue.pointingButtonManager.OnlyIncreases ∧
    s.manipulator.pressedButtons = s.buttons ∧
    (∀ report ∈ reports.getLast?, report.buttons = s.buttons) ∧
    ((∃ before, before <+: is ∧
        (Machine.run stepButtons (Stage.initial world) before).buttons ≠ HidReport.noButtons) →
      reports ≠ []) := by
  intro s reports
  have hincreases := onlyIncreases_run world is
  obtain ⟨hlast, -⟩ := getLast_reports_run world is
  refine ⟨fun n low high => ?_, hincreases, pressedButtons_run world is, hlast, ?_⟩
  · intro button
    have husage : button.usage ≠ Usage.undefined :=
      Int.natCast_ne_zero_iff_pos.mpr low
    have hheld : HidReport.buttonExists s.buttons n = true ↔
        ∃ deviceId, History.Since (fun _ i => i.Presses deviceId button)
          (fun i => ¬i.IsKeyUp button ∧ ¬i.IsSingle button ∧ ¬i.Leaves deviceId) is := by
      rw [Stage.buttons, buttonExists_makeHidReportButtons sets,
        PointingButtonManager.mem_makeHidReportButtons hincreases low high]
      exact exists_congr fun deviceId => holds_run world is deviceId rfl husage
    refine ⟨hheld, fun hsingle => hheld.trans (exists_congr fun deviceId => ?_)⟩
    refine History.since_congr fun i hi => ?_
    simp [hsingle i hi]
  · rintro ⟨before, ⟨after, rfl⟩, hbuttons⟩ hnil
    have happend := Machine.outputs_append stepReports (Stage.initial world) before after
    have hbefore := (List.append_eq_nil_iff.mp (happend.symm.trans hnil)).1
    exact hbuttons ((getLast_reports_run world before).2 hbefore)

/-- The first button goes down, or up. -/
def firstButton (deviceId : DeviceId) (eventType : EventType) : Entry :=
  let e : Karabiner.Event := .momentarySwitchEvent ⟨⟨UsagePage.button, 1⟩⟩
  ⟨deviceId, ⟨0, 0⟩, e, eventType, e, .original, false, .valid⟩

end PostEventToVirtualDevices

namespace PostEventToVirtualDevices

/-- `run_pointingButtons` with finite sets as the containers: a device presses the first button,
and another one releases it. -/
theorem run_pointingButtons_finsets :
    letI := HidReport.finsets
    letI : MachTimebase := ⟨1, 1⟩
    letI := Exprtk.singleVariable
    letI : SystemClock := ⟨fun _ => 0⟩
    let is : List ButtonInput :=
      [.processFront (firstButton 1 .keyDown), .processFront (firstButton 2 .keyUp)]
    let s := Machine.run stepButtons (Stage.initial .initial) is
    HidReport.buttonExists s.buttons 1 = true ↔
      ∃ deviceId, History.Since (fun _ i => i.Presses deviceId ⟨UsagePage.button, 1⟩)
        (fun i => ¬i.IsKeyUp ⟨UsagePage.button, 1⟩ ∧ ¬i.IsSingle ⟨UsagePage.button, 1⟩ ∧
          ¬i.Leaves deviceId) is :=
  letI := HidReport.finsets
  letI : MachTimebase := ⟨1, 1⟩
  letI := Exprtk.singleVariable
  letI : SystemClock := ⟨fun _ => 0⟩
  ((run_pointingButtons HidReport.finsets_containersAreSets .initial
    [.processFront (firstButton 1 .keyDown), .processFront (firstButton 2 .keyUp)]).1 1 le_rfl
      (by decide)).1

end PostEventToVirtualDevices

end Karabiner
