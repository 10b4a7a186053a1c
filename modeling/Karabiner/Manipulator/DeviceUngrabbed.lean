import Karabiner.Manipulator.ManipulatorManager
import Karabiner.Manipulator.PostEventToVirtualDevices.FinalStage

/-!
# Ungrabbing a device

A `device_ungrabbed` entry goes through all stages of the pipeline.  A stage erases what its output
queue knows of the device before the manipulators see the entry, so that the final stage reports the
modifiers and the buttons that the other devices still hold.

* `Basic.released_handleDeviceUngrabbedEvent` — a basic manipulator releases what the device holds.
* `PostEventToVirtualDevices.reports_handleDeviceUngrabbedEvent` — the reports of the final stage: a
  key_up for each key of the device, then the buttons and the modifiers.
* `deviceUngrabbed_releases` — **ungrabbing a device releases everything it holds**, in every stage.
-/

namespace Karabiner

namespace Basic

/-! ### A basic manipulator -/

/-- Everything that a device holds is released, and nothing else. -/
structure Released (deviceId : DeviceId) (b b' : Basic) : Prop where
  released : ∀ id ∈ b'.manipulatedOriginalEvents, ∃ m, b'.objects[id]? = some m ∧
    m.fromEvents ≠ ∅ ∧ ∀ fe ∈ m.fromEvents, fe.deviceId ≠ deviceId
  kept : ∀ (id : ℕ) (fe : FromEvent), fe.deviceId ≠ deviceId →
    (id ∈ b'.manipulatedOriginalEvents ∧ b'.fromEventExists fe id = true ↔
      id ∈ b.manipulatedOriginalEvents ∧ b.fromEventExists fe id = true)

theorem released_handleDeviceUngrabbedEvent (b : Basic) (deviceId : DeviceId) :
    Released deviceId b (b.handleDeviceUngrabbedEvent deviceId) := by
  have hobjects (id : ℕ) : (b.handleDeviceUngrabbedEvent deviceId).objects[id]? =
      b.objects[id]?.map fun m =>
        if id ∈ b.manipulatedOriginalEvents then
          { m with fromEvents := m.fromEvents.filter fun fe => fe.deviceId ≠ deviceId }
        else m := by
    simp only [handleDeviceUngrabbedEvent, mapObjects, List.getElem?_mapIdx]
  have hlist (id : ℕ) : id ∈ (b.handleDeviceUngrabbedEvent deviceId).manipulatedOriginalEvents ↔
      id ∈ b.manipulatedOriginalEvents ∧
        ∃ m, (b.handleDeviceUngrabbedEvent deviceId).objects[id]? = some m ∧
          m.fromEvents ≠ ∅ := by
    rw [manipulatedOriginalEvents_handleDeviceUngrabbedEvent, List.mem_filter]
    refine and_congr_right fun _ => ?_
    cases (b.handleDeviceUngrabbedEvent deviceId).objects[id]? <;> simp
  constructor
  · intro id hid
    obtain ⟨hmem, m', hm', hne⟩ := (hlist id).mp hid
    refine ⟨m', hm', hne, ?_⟩
    rw [hobjects, Option.map_eq_some_iff] at hm'
    obtain ⟨m, -, rfl⟩ := hm'
    rw [if_pos hmem]
    exact fun fe hfe => (Finset.mem_filter.mp hfe).2
  · intro id fe hdevice
    rw [hlist, fromEventExists, fromEventExists, hobjects]
    cases hm : b.objects[id]? with
    | none => simp
    | some m =>
        constructor
        · rintro ⟨⟨hmem, -⟩, hfe⟩
          simp only [Option.map_some, if_pos hmem, decide_eq_true_eq] at hfe
          exact ⟨hmem, decide_eq_true (Finset.mem_filter.mp hfe).1⟩
        · rintro ⟨hmem, hfe⟩
          have hfe' : fe ∈ m.fromEvents.filter fun fe => fe.deviceId ≠ deviceId :=
            Finset.mem_filter.mpr ⟨of_decide_eq_true hfe, hdevice⟩
          simp only [Option.map_some, if_pos hmem]
          exact ⟨⟨hmem, _, rfl, Finset.ne_empty_of_mem hfe'⟩, decide_eq_true hfe'⟩

end Basic

/-! ### The managers of an output queue -/

namespace Queue

/-- No modifier flag and no pointing button of the device is active. -/
def IsFreeOf (q : Queue) (deviceId : DeviceId) : Prop :=
  (∀ f ∈ q.modifierFlagManager.activeModifierFlags, f.deviceId ≠ deviceId) ∧
    ∀ b ∈ q.pointingButtonManager.activePointingButtons, b.deviceId ≠ deviceId

/-- The queue after its managers have erased a device. -/
theorem isFreeOf_erase (q : Queue) (deviceId : DeviceId) :
    IsFreeOf
      { q with
        modifierFlagManager := q.modifierFlagManager.eraseAllActiveModifierFlags deviceId
        pointingButtonManager := q.pointingButtonManager.eraseAllActivePointingButtons deviceId }
      deviceId := by
  constructor
  · intro f hf
    simpa using (List.mem_filter.mp hf).2
  · intro b hb
    simpa using (List.mem_filter.mp hb).2

end Queue

variable [Exprtk] [SystemClock]

/-- Pushing a `device_ungrabbed` entry leaves the managers alone. -/
theorem Output.managers_emplaceBackEntry (o : Output) {front : Entry}
    (hevent : front.event = .deviceUngrabbed) :
    (o.emplaceBackEntry front).queue.modifierFlagManager = o.queue.modifierFlagManager ∧
      (o.emplaceBackEntry front).queue.pointingButtonManager = o.queue.pointingButtonManager := by
  simp [emplaceBackEntry, Queue.updateModifierFlagManager, Queue.updatePointingButtonManager,
    hevent]

namespace Connection

variable [MachTimebase]

/-- A stage of basic manipulators. -/
theorem manipulate_deviceUngrabbed {c : Connection} {front : Entry} {rest : List Entry}
    (hevents : c.input.events = front :: rest) (hevent : front.event = .deviceUngrabbed)
    (now : AbsoluteTime) (reorder : Bool) :
    let c' := c.manipulate now reorder
    List.Forall₂ (fun slot slot' => slot'.serial = slot.serial ∧
      Basic.Released front.deviceId slot.basic slot'.basic)
      c.manager.manipulators c'.manager.manipulators ∧
    c'.output.queue.IsFreeOf front.deviceId := by
  have hfree := c.output.queue.isFreeOf_erase front.deviceId
  let queue : Queue :=
    { c.output.queue with
      modifierFlagManager :=
        c.output.queue.modifierFlagManager.eraseAllActiveModifierFlags front.deviceId
      pointingButtonManager :=
        c.output.queue.pointingButtonManager.eraseAllActivePointingButtons front.deviceId }
  have hhandle : c.handleFront front rest now =
      ⟨false, c.manager.map fun b => b.handleDeviceUngrabbedEvent front.deviceId, front,
        { c.output with queue := queue }⟩ := by
    unfold handleFront
    rw [hevent]
  have hmanipulate : c.manipulate now reorder =
      { input := c.input.eraseFrontEvent
        manager := c.manager.map fun b => b.handleDeviceUngrabbedEvent front.deviceId
        output := copyFront front reorder { c.output with queue := queue }
        processed := c.processed ++ [front] } := by
    unfold manipulate
    rw [hevents]
    dsimp only
    rw [hhandle]
    rfl
  dsimp only
  rw [hmanipulate]
  constructor
  · refine List.forall₂_map_right_iff.mpr (List.forall₂_same.mpr fun slot _ => ⟨rfl, ?_⟩)
    exact slot.basic.released_handleDeviceUngrabbedEvent front.deviceId
  · obtain ⟨hflags, hbuttons⟩ :=
      Output.managers_emplaceBackEntry { c.output with queue := queue } hevent
    have hcopied : (if front.validity = .valid then
        Output.emplaceBackEntry { c.output with queue := queue } front
        else { c.output with queue := queue }).queue.IsFreeOf front.deviceId := by
      split_ifs
      · rw [Queue.IsFreeOf, hflags, hbuttons]
        exact hfree
      · exact hfree
    unfold copyFront
    cases reorder <;> exact hcopied

end Connection

namespace PostEventToVirtualDevices

variable [HidReport] [MachTimebase]

/-! ### The final stage -/

namespace KeyEventDispatcher

omit [Exprtk] [SystemClock]

/-- Dispatching modifiers may release a held caps lock key, and presses no key. -/
theorem pressedKeys_dispatchModifierKeyEvent (d : KeyEventDispatcher)
    (manager : ModifierFlagManager) (q : Queue) (timeStamp : AbsoluteTime) :
    (d.dispatchModifierKeyEvent manager q timeStamp).1.pressedKeys.Sublist d.pressedKeys := by
  have henqueue (d : KeyEventDispatcher) (m : ModifierFlag) (eventType : EventType) (q : Queue) :
      (d.enqueueModifier m eventType q timeStamp).1.pressedKeys.Sublist d.pressedKeys := by
    unfold enqueueModifier
    split_ifs
    · unfold sendCapsLock dispatchKeyUpEvent
      dsimp only
      split_ifs
      · exact List.filter_sublist
      · exact .refl _
    · exact .refl _
  have hround (s : KeyEventDispatcher × Queue) (m : ModifierFlag) :
      (dispatchModifierFlag manager timeStamp s m).1.pressedKeys.Sublist s.1.pressedKeys := by
    unfold dispatchModifierFlag
    dsimp only
    split
    · exact henqueue _ m .keyDown s.2
    · exact henqueue _ m .keyUp s.2
    · exact .refl _
  unfold dispatchModifierKeyEvent
  generalize dispatchedModifierFlags = flags
  suffices h : ∀ s : KeyEventDispatcher × Queue,
      (flags.foldl (dispatchModifierFlag manager timeStamp) s).1.pressedKeys.Sublist
        s.1.pressedKeys from h (d, q)
  induction flags with
  | nil => exact fun s => .refl _
  | cons m flags ih => exact fun s => (ih _).trans (hround s m)

/-- The key_ups of a device, without the fuel. -/
theorem dispatchKeyUpEventsByDeviceId_eq (d : KeyEventDispatcher) (deviceId : DeviceId)
    (timeStamp : AbsoluteTime) (hnodup : (d.pressedKeys.map Prod.snd).Nodup) (q : Queue) :
    d.dispatchKeyUpEventsByDeviceId deviceId q timeStamp =
      ({ d with pressedKeys := d.pressedKeys.filter fun k => k.1 ≠ deviceId },
        postKeyUps q (d.usagesOf deviceId) timeStamp) := by
  have hlength : (d.usagesOf deviceId).length ≤ d.pressedKeys.length := by
    rw [usagesOf, List.length_map]
    exact List.length_filter_le _ _
  exact dispatchKeyUpEventsByDeviceIdFrom_spec deviceId timeStamp hlength hnodup q

theorem length_postKeyUps {usagePairs : List UsagePair}
    (hpages : ∀ p ∈ usagePairs, p.usagePage ∈ Queue.reportedPages) (q : Queue)
    (timeStamp : AbsoluteTime) :
    (postKeyUps q usagePairs timeStamp).events.length = q.events.length + usagePairs.length := by
  induction usagePairs generalizing q with
  | nil => rfl
  | cons p usagePairs ih =>
      have hrest := ih (fun p' hp' => hpages p' (List.mem_cons_of_mem _ hp'))
        (q.emplaceBackKeyEvent p .keyUp timeStamp)
      obtain ⟨report, hevents, -⟩ :=
        q.exists_report (hpages p List.mem_cons_self) .keyUp timeStamp
      rw [hevents, List.length_append, List.length_singleton] at hrest
      rw [List.length_cons]
      change (postKeyUps (q.emplaceBackKeyEvent p .keyUp timeStamp) usagePairs
        timeStamp).events.length = _
      omega

/-- Key_ups of usages, one after another.  The report of a usage is one of its page, on which it was
pressed, and from which it is gone.  A usage of a page that has no reports is not reported. -/
inductive KeyUps : (UsagePair → Prop) → List UsagePair → List Event → Prop
  | nil (pressed : UsagePair → Prop) : KeyUps pressed [] []
  | reported {pressed : UsagePair → Prop} {p : UsagePair} {usagePairs : List UsagePair}
      {report : Event} {reports : List Event} (page : p.usagePage ∈ Queue.reportedPages)
      (held : pressed p) (release : report.Reports p.usagePage fun p' => p' ≠ p ∧ pressed p')
      (rest : KeyUps (fun p' => p' ≠ p ∧ pressed p') usagePairs reports) :
      KeyUps pressed (p :: usagePairs) (report :: reports)
  | unreported {pressed : UsagePair → Prop} {p : UsagePair} {usagePairs : List UsagePair}
      {reports : List Event} (page : p.usagePage ∉ Queue.reportedPages)
      (rest : KeyUps (fun p' => p' ≠ p ∧ pressed p') usagePairs reports) :
      KeyUps pressed (p :: usagePairs) reports

/-- **Each usage gets its key_up**: the reports behind those that have been there. -/
theorem keyUps_postKeyUps (sets : HidReport.ContainersAreSets) {usagePairs : List UsagePair}
    (hnodup : usagePairs.Nodup) (hbit : ∀ p ∈ usagePairs, Queue.modifierBit p = none) {q : Queue}
    (hheld : ∀ p ∈ usagePairs, p.usagePage ∈ Queue.reportedPages → q.reported p = true)
    (timeStamp : AbsoluteTime) :
    ∃ reports, (postKeyUps q usagePairs timeStamp).events = q.events ++ reports ∧
      KeyUps (fun p => q.reported p = true) usagePairs reports := by
  induction usagePairs generalizing q with
  | nil => exact ⟨[], (List.append_nil _).symm, .nil _⟩
  | cons p usagePairs ih =>
      obtain ⟨hnew, hnodup⟩ := List.nodup_cons.mp hnodup
      have hbit' := hbit p List.mem_cons_self
      let q' := q.emplaceBackKeyEvent p .keyUp timeStamp
      have hne {p' : UsagePair} (hp' : p' ∈ usagePairs) : p' ≠ p := fun heq => hnew (heq ▸ hp')
      have hpressed : (fun p' => q'.reported p' = true) =
          fun p' => p' ≠ p ∧ q.reported p' = true := by
        funext p'
        by_cases heq : p' = p
        · have hgone : q'.reported p' = false := by
            by_cases hpage : p'.usagePage ∈ Queue.reportedPages
            · rw [q.reported_keyUp sets hbit' timeStamp hpage, decide_eq_false (not_not.mpr heq),
                Bool.false_and]
            · exact Queue.reported_of_not_mem _ hpage
          rw [hgone]
          simp [heq]
        · simp [q', q.reported_of_ne sets heq (by decide : EventType.keyUp ≠ .single), heq]
      obtain ⟨reports, hevents, hreports⟩ := ih hnodup
        (fun p' hp' => hbit p' (List.mem_cons_of_mem _ hp')) (q := q') fun p' hp' hpage => by
          rw [q.reported_of_ne sets (hne hp') (by decide)]
          exact hheld p' (List.mem_cons_of_mem _ hp') hpage
      rw [hpressed] at hreports
      change ∃ reports, (postKeyUps q' usagePairs timeStamp).events = _ ∧ _
      rw [hevents]
      by_cases hpage : p.usagePage ∈ Queue.reportedPages
      · obtain ⟨report, happend, hreport, -⟩ := q.exists_report_keyUp sets hbit' hpage timeStamp
        refine ⟨report :: reports, ?_,
          .reported hpage (hheld p List.mem_cons_self hpage) hreport hreports⟩
        rw [happend, List.append_assoc, List.singleton_append]
      · exact ⟨reports, by rw [q.events_of_not_mem hpage], .unreported hpage hreports⟩

/-- Reports are appended in none of which a usage of `released` is pressed, and none of them is
pressed at the end. -/
structure LeavesOut (released : UsagePair → Prop) (q q' : Queue) : Prop where
  reported : ∀ p, released p → q'.reported p = false
  events : ∃ reports, q'.events = q.events ++ reports ∧
    ∀ report ∈ reports, ∀ p, released p → ¬ report.Presses p

namespace LeavesOut

variable {released : UsagePair → Prop} {q q' q'' : Queue}

omit [MachTimebase] in
theorem refl (h : ∀ p, released p → q.reported p = false) : LeavesOut released q q :=
  ⟨h, [], (List.append_nil _).symm, fun _ hreport => absurd hreport List.not_mem_nil⟩

omit [MachTimebase] in
theorem trans (h : LeavesOut released q q') (h' : LeavesOut released q' q'') :
    LeavesOut released q q'' := by
  obtain ⟨reports, hevents, hreports⟩ := h.events
  obtain ⟨reports', hevents', hreports'⟩ := h'.events
  refine ⟨h'.reported, reports ++ reports', ?_, fun report hreport => ?_⟩
  · rw [hevents', hevents, List.append_assoc]
  · exact (List.mem_append.mp hreport).elim (hreports report) (hreports' report)

/-- A key event of another usage. -/
theorem emplaceBackKeyEvent (sets : HidReport.ContainersAreSets)
    (h : ∀ p, released p → q.reported p = false) {p' : UsagePair} (hp' : ¬ released p')
    {eventType : EventType} (hsingle : eventType ≠ .single) (timeStamp : AbsoluteTime) :
    LeavesOut released q (q.emplaceBackKeyEvent p' eventType timeStamp) := by
  have hkeep : ∀ p, released p →
      (q.emplaceBackKeyEvent p' eventType timeStamp).reported p = false := by
    intro p hp
    have hne : p ≠ p' := by
      rintro rfl
      exact hp' hp
    rw [q.reported_of_ne sets hne hsingle]
    exact h p hp
  refine ⟨hkeep, ?_⟩
  by_cases hpage : p'.usagePage ∈ Queue.reportedPages
  · obtain ⟨report, hevents, hreports, -⟩ := q.exists_report hpage eventType timeStamp
    refine ⟨[report], hevents, fun report' hreport' p hp hpresses => ?_⟩
    rw [List.mem_singleton.mp hreport', hreports.presses_iff, hkeep p hp] at hpresses
    exact Bool.false_ne_true hpresses.2
  · exact ⟨[], by rw [q.events_of_not_mem hpage, List.append_nil],
      fun _ hreport => absurd hreport List.not_mem_nil⟩

end LeavesOut

omit [HidReport] [MachTimebase] in
/-- The usage of the caps lock key, which is tapped. -/
def capsLockUsagePair : UsagePair := (MomentarySwitchEvent.ofModifierFlag .capsLock).usagePair

/-- Dispatching the modifiers presses no key but caps lock. -/
theorem leavesOut_dispatchModifierKeyEvent (sets : HidReport.ContainersAreSets)
    {released : UsagePair → Prop}
    (hreleased : ∀ p, released p → (MomentarySwitchEvent.mk p).modifierFlag = false ∧
      p ≠ capsLockUsagePair) (d : KeyEventDispatcher) (manager : ModifierFlagManager) {q : Queue}
    (h : ∀ p, released p → q.reported p = false) (timeStamp : AbsoluteTime) :
    LeavesOut released q (d.dispatchModifierKeyEvent manager q timeStamp).2 := by
  have hcaps : ¬ released capsLockUsagePair := fun hp => (hreleased _ hp).2 rfl
  have hkeyUp {q : Queue} (h : ∀ p, released p → q.reported p = false) (d : KeyEventDispatcher) :
      LeavesOut released q (d.dispatchKeyUpEvent capsLockUsagePair q timeStamp).2 := by
    unfold dispatchKeyUpEvent
    split_ifs
    · exact .emplaceBackKeyEvent sets h hcaps (by decide) timeStamp
    · exact .refl h
  have henqueue {q : Queue} (h : ∀ p, released p → q.reported p = false) (d : KeyEventDispatcher)
      {m : ModifierFlag} (hm : m ∈ dispatchedModifierFlags) {eventType : EventType}
      (hsingle : eventType ≠ .single) :
      LeavesOut released q (d.enqueueModifier m eventType q timeStamp).2 := by
    unfold enqueueModifier
    split_ifs with hcapsLock
    · have hup := hkeyUp h d
      have hdown : LeavesOut released _ _ :=
        .emplaceBackKeyEvent sets hup.reported hcaps (by decide : EventType.keyDown ≠ .single)
          timeStamp
      exact (hup.trans hdown).trans
        (.emplaceBackKeyEvent sets hdown.reported hcaps (by decide) timeStamp)
    · dsimp only
      split_ifs
      · refine .emplaceBackKeyEvent sets h (fun hp => ?_) hsingle timeStamp
        have hmodifier := (hreleased _ hp).1
        cases m <;> simp [dispatchedModifierFlags] at hm hcapsLock <;> revert hmodifier <;> decide
      · exact .refl h
  unfold dispatchModifierKeyEvent
  suffices hfold : ∀ (flags : List ModifierFlag) (s : KeyEventDispatcher × Queue),
      (∀ m ∈ flags, m ∈ dispatchedModifierFlags) → (∀ p, released p → s.2.reported p = false) →
      LeavesOut released s.2 (flags.foldl (dispatchModifierFlag manager timeStamp) s).2 from
    hfold _ (d, q) (fun _ hm => hm) h
  intro flags
  induction flags with
  | nil => exact fun s _ h => .refl h
  | cons m flags ih =>
      intro s hflags h
      have hround : LeavesOut released s.2 (dispatchModifierFlag manager timeStamp s m).2 := by
        unfold dispatchModifierFlag
        dsimp only
        split
        · exact henqueue h _ (hflags m List.mem_cons_self) (by decide)
        · exact henqueue h _ (hflags m List.mem_cons_self) (by decide)
        · exact .refl h
      exact hround.trans
        (ih _ (fun m' hm' => hflags m' (List.mem_cons_of_mem _ hm')) hround.reported)

end KeyEventDispatcher

/-! ### Ungrabbing in the final stage -/

omit [Exprtk] [SystemClock] [MachTimebase] in
/-- A key that the dispatcher does not hold is not pressed in the reports. -/
theorem IsCoherent.reported_eq_false {p : PostEventToVirtualDevices} (h : p.IsCoherent)
    {usagePair : UsagePair} (hmodifier : (MomentarySwitchEvent.mk usagePair).modifierFlag = false)
    (hkey : usagePair ∉ p.keyEventDispatcher.pressedKeys.map Prod.snd) :
    p.queue.reported usagePair = false := by
  by_cases hpage : usagePair.usagePage ∈ Queue.reportedPages
  · rw [← Bool.not_eq_true]
    intro hreported
    rcases (h.reported usagePair (KeyEventDispatcher.modifierBit_eq_none hmodifier) hpage).mp
      hreported with hmem | ⟨rfl, -⟩
    · exact hkey hmem
    · exact absurd hmodifier (by decide)
  · exact Queue.reported_of_not_mem _ hpage

omit [Exprtk] [SystemClock] in
@[simp] theorem keyEventDispatcher_releaseButtons (p : PostEventToVirtualDevices)
    (manager : PointingButtonManager) (timeStamp : AbsoluteTime) :
    (p.releaseButtons manager timeStamp).keyEventDispatcher = p.keyEventDispatcher := by
  unfold releaseButtons
  dsimp only
  split_ifs <;> rfl

omit [Exprtk] [SystemClock] in
/-- The report of the buttons, if they have changed. -/
theorem events_releaseButtons (p : PostEventToVirtualDevices) (manager : PointingButtonManager)
    (timeStamp : AbsoluteTime) :
    ∃ buttons, (p.releaseButtons manager timeStamp).queue.events = p.queue.events ++ buttons ∧
      if p.pressedButtons = makeHidReportButtons manager then buttons = []
      else ∃ t, buttons = [⟨.pointingInput { buttons := makeHidReportButtons manager }, t⟩] := by
  unfold releaseButtons
  dsimp only
  by_cases hsame : p.pressedButtons = makeHidReportButtons manager
  · exact ⟨[], by simp [hsame], by rw [if_pos hsame]⟩
  · rw [if_pos hsame]
    exact ⟨_, rfl, by rw [if_neg hsame]; exact ⟨_, rfl⟩⟩

omit [HidReport] [MachTimebase] [Exprtk] [SystemClock] in
/-- The keys that are left are not those of the device. -/
theorem not_mem_of_mem_usagesOf {d : KeyEventDispatcher}
    (hnodup : (d.pressedKeys.map Prod.snd).Nodup) {deviceId : DeviceId} {usagePair : UsagePair}
    (h : usagePair ∈ d.usagesOf deviceId) :
    usagePair ∉ (d.pressedKeys.filter fun k => k.1 ≠ deviceId).map Prod.snd := by
  obtain ⟨k, hk, rfl⟩ := List.mem_map.mp h
  obtain ⟨hkey, hdevice⟩ := List.mem_filter.mp hk
  intro hmem
  obtain ⟨k', hk', heq⟩ := List.mem_map.mp hmem
  obtain ⟨hkey', hdevice'⟩ := List.mem_filter.mp hk'
  obtain rfl : k' = k := List.inj_on_of_nodup_map hnodup hkey' hkey heq
  simp_all

omit [Exprtk] [SystemClock] in
/-- **The reports of an ungrab**: the key_ups of the device, the buttons if they have changed, and
what the modifiers need, with no usage of the device pressed again. -/
theorem reports_handleDeviceUngrabbedEvent (sets : HidReport.ContainersAreSets)
    {p : PostEventToVirtualDevices} (h : p.IsCoherent) (deviceId : DeviceId)
    (outputEventQueue : Karabiner.Queue) (timeStamp : AbsoluteTime) :
    let usagePairs := p.keyEventDispatcher.usagesOf deviceId
    let buttons' := makeHidReportButtons outputEventQueue.pointingButtonManager
    let p' := p.handleDeviceUngrabbedEvent deviceId outputEventQueue timeStamp
    (∃ keyUps buttons modifiers,
      p'.queue.events = p.queue.events ++ keyUps ++ buttons ++ modifiers ∧
      KeyEventDispatcher.KeyUps (fun u => p.queue.reported u = true) usagePairs keyUps ∧
      (if p.pressedButtons = buttons' then buttons = []
        else ∃ t, buttons = [⟨.pointingInput { buttons := buttons' }, t⟩]) ∧
      ∀ report ∈ modifiers, ∀ u ∈ usagePairs, u ≠ KeyEventDispatcher.capsLockUsagePair →
        ¬ report.Presses u) ∧
    ∀ u ∈ usagePairs, p'.queue.reported u = false := by
  intro usagePairs buttons' p'
  let d := p.keyEventDispatcher
  have hnodup : usagePairs.Nodup := h.nodup.sublist (List.filter_sublist.map _)
  have hkey {u : UsagePair} (hu : u ∈ usagePairs) : u ∈ d.pressedKeys.map Prod.snd :=
    (List.filter_sublist.map _).subset hu
  have hmodifier {u : UsagePair} (hu : u ∈ usagePairs) :
      (MomentarySwitchEvent.mk u).modifierFlag = false := h.not_modifier u (hkey hu)
  have hgone {u : UsagePair} (hu : u ∈ usagePairs) := not_mem_of_mem_usagesOf h.nodup hu
  -- the key_ups
  let p₁ := p.dispatched (d.dispatchKeyUpEventsByDeviceId deviceId p.queue timeStamp)
  have hp₁ : p₁.IsCoherent :=
    KeyEventDispatcher.coherent_dispatchKeyUpEventsByDeviceId sets h deviceId timeStamp
  have hdispatch := d.dispatchKeyUpEventsByDeviceId_eq deviceId timeStamp h.nodup p.queue
  obtain ⟨keyUps, hkeyUps, hreleases⟩ := KeyEventDispatcher.keyUps_postKeyUps sets hnodup
    (fun u hu => KeyEventDispatcher.modifierBit_eq_none (hmodifier hu))
    (fun u hu hpage => (h.reported u (KeyEventDispatcher.modifierBit_eq_none (hmodifier hu))
      hpage).mpr (.inl (hkey hu))) timeStamp
  have hevents₁ : p₁.queue.events = p.queue.events ++ keyUps := by
    rw [← hkeyUps]
    exact congrArg (fun s => s.2.events) hdispatch
  -- the buttons
  let p₂ := p₁.releaseButtons outputEventQueue.pointingButtonManager timeStamp
  have hp₂ : p₂.IsCoherent := isCoherent_releaseButtons hp₁ _ _
  obtain ⟨buttons, hevents₂, hbuttons⟩ :=
    p₁.events_releaseButtons outputEventQueue.pointingButtonManager timeStamp
  have hdispatcher₂ : p₂.keyEventDispatcher.pressedKeys =
      d.pressedKeys.filter fun k => k.1 ≠ deviceId := by
    rw [keyEventDispatcher_releaseButtons]
    exact congrArg (fun s => s.1.pressedKeys) hdispatch
  have hreported₂ {u : UsagePair} (hu : u ∈ usagePairs) : p₂.queue.reported u = false :=
    hp₂.reported_eq_false (hmodifier hu) (hdispatcher₂ ▸ hgone hu)
  -- the modifiers
  let released (u : UsagePair) : Prop := u ∈ usagePairs ∧ u ≠ KeyEventDispatcher.capsLockUsagePair
  have hreleased : ∀ u, released u → (MomentarySwitchEvent.mk u).modifierFlag = false ∧
      u ≠ KeyEventDispatcher.capsLockUsagePair := fun u hu => ⟨hmodifier hu.1, hu.2⟩
  obtain ⟨-, modifiers, hevents₃, hmodifiers⟩ :=
    KeyEventDispatcher.leavesOut_dispatchModifierKeyEvent sets hreleased p₂.keyEventDispatcher
      outputEventQueue.modifierFlagManager (fun u hu => hreported₂ hu.1) timeStamp
  refine ⟨⟨keyUps, buttons, modifiers, ?_, hreleases, hbuttons,
    fun report hreport u hu hcaps => hmodifiers report hreport u ⟨hu, hcaps⟩⟩, fun u hu => ?_⟩
  · rw [← hevents₁, ← hevents₂, ← hevents₃]
    rfl
  · have hp' : p'.IsCoherent := isCoherent_handleDeviceUngrabbedEvent sets h _ _ _
    refine hp'.reported_eq_false (hmodifier hu) fun hmem => hgone hu ?_
    rw [← hdispatcher₂]
    exact ((KeyEventDispatcher.pressedKeys_dispatchModifierKeyEvent p₂.keyEventDispatcher
      outputEventQueue.modifierFlagManager p₂.queue timeStamp).map _).subset hmem

/-- What the final stage has become once it has processed a `device_ungrabbed` entry. -/
structure Ungrabbed (s s' : Stage) (deviceId : DeviceId) (timeStamp : AbsoluteTime) : Prop where
  isFreeOf : s'.output.queue.IsFreeOf deviceId
  /-- The loop over the keys ends, with one key_up for each usage that the device holds. -/
  loop : ∀ fuel, (s.manipulator.keyEventDispatcher.usagesOf deviceId).length ≤ fuel →
    KeyEventDispatcher.dispatchKeyUpEventsByDeviceIdFrom deviceId timeStamp fuel
        (s.manipulator.keyEventDispatcher, s.manipulator.queue) =
      ({ s.manipulator.keyEventDispatcher with
          pressedKeys := s.manipulator.keyEventDispatcher.pressedKeys.filter fun k =>
            k.1 ≠ deviceId },
        KeyEventDispatcher.postKeyUps s.manipulator.queue
          (s.manipulator.keyEventDispatcher.usagesOf deviceId) timeStamp)
  nodup : (s.manipulator.keyEventDispatcher.usagesOf deviceId).Nodup
  keyUps : (∀ p ∈ s.manipulator.keyEventDispatcher.usagesOf deviceId,
      p.usagePage ∈ Queue.reportedPages) →
    (KeyEventDispatcher.postKeyUps s.manipulator.queue
        (s.manipulator.keyEventDispatcher.usagesOf deviceId) timeStamp).events.length =
      s.manipulator.queue.events.length +
        (s.manipulator.keyEventDispatcher.usagesOf deviceId).length
  /-- Behind the reports of before stand the key_ups, the buttons if they have changed, and what
  the modifiers need, with no usage of the device pressed again; caps lock is tapped. -/
  reports : ∃ keyUps buttons modifiers : List Event,
    s'.manipulator.queue.events = s.manipulator.queue.events ++ keyUps ++ buttons ++ modifiers ∧
      KeyEventDispatcher.KeyUps (fun p => s.manipulator.queue.reported p = true)
        (s.manipulator.keyEventDispatcher.usagesOf deviceId) keyUps ∧
      (if s.manipulator.pressedButtons = s'.manipulator.pressedButtons then buttons = []
        else ∃ t, buttons = [⟨.pointingInput { buttons := s'.manipulator.pressedButtons }, t⟩]) ∧
      ∀ report ∈ modifiers, ∀ p ∈ s.manipulator.keyEventDispatcher.usagesOf deviceId,
        p ≠ KeyEventDispatcher.capsLockUsagePair → ¬ report.Presses p
  reported : ∀ p ∈ s.manipulator.keyEventDispatcher.usagesOf deviceId,
    s'.manipulator.queue.reported p = false
  pressedKeys : ∀ k ∈ s'.manipulator.keyEventDispatcher.pressedKeys, k.1 ≠ deviceId
  pressedModifierFlags : ∀ m ∈ KeyEventDispatcher.dispatchedModifierFlags,
    (m ∈ s'.manipulator.keyEventDispatcher.pressedModifierFlags ↔
      s'.output.queue.modifierFlagManager.isPressed m = true)
  modifiers : s'.manipulator.queue.keyboardInput.modifiers =
    KeyEventDispatcher.makeHidReportModifiers s'.output.queue.modifierFlagManager
  pressedButtons : s'.manipulator.pressedButtons =
    makeHidReportButtons s'.output.queue.pointingButtonManager
  mouseKeys : ∀ e ∈ s'.manipulator.mouseKeyHandler.entries, e.1 ≠ deviceId

theorem ungrabbed_processFront (sets : HidReport.ContainersAreSets) {s : Stage}
    (h : s.manipulator.IsCoherent) {front : Entry} (hevent : front.event = .deviceUngrabbed) :
    Ungrabbed s (processFront s front) front.deviceId front.eventTimeStamp.timeStamp := by
  let deviceId := front.deviceId
  let timeStamp := front.eventTimeStamp.timeStamp
  let d := s.manipulator.keyEventDispatcher
  have hnodup : (d.usagesOf deviceId).Nodup := h.nodup.sublist (List.filter_sublist.map _)
  have hloop {fuel : ℕ} (hfuel : (d.usagesOf deviceId).length ≤ fuel) :=
    KeyEventDispatcher.dispatchKeyUpEventsByDeviceIdFrom_spec deviceId timeStamp hfuel h.nodup
      s.manipulator.queue
  let queue : Karabiner.Queue :=
    { s.output.queue with
      modifierFlagManager :=
        s.output.queue.modifierFlagManager.eraseAllActiveModifierFlags deviceId
      pointingButtonManager :=
        s.output.queue.pointingButtonManager.eraseAllActivePointingButtons deviceId }
  have hprocess : processFront s front =
      ⟨s.manipulator.handleDeviceUngrabbedEvent deviceId queue timeStamp,
        copyFront front { s.output with queue := queue }⟩ := by
    unfold processFront
    rw [hevent]
  have hcopy : (copyFront front { s.output with queue := queue }).queue.modifierFlagManager =
        queue.modifierFlagManager ∧
      (copyFront front { s.output with queue := queue }).queue.pointingButtonManager =
        queue.pointingButtonManager := by
    unfold copyFront
    split_ifs
    · exact Output.managers_emplaceBackEntry _ hevent
    · exact ⟨rfl, rfl⟩
  -- the state between the buttons and the modifiers
  let released := s.manipulator.dispatched
    (d.dispatchKeyUpEventsByDeviceId deviceId s.manipulator.queue timeStamp)
  have hreleased : released.IsCoherent :=
    KeyEventDispatcher.coherent_dispatchKeyUpEventsByDeviceId sets h deviceId timeStamp
  let p := released.releaseButtons queue.pointingButtonManager timeStamp
  have hp : p.IsCoherent := isCoherent_releaseButtons hreleased _ _
  have hdispatcher : p.keyEventDispatcher =
      { d with pressedKeys := d.pressedKeys.filter fun k => k.1 ≠ deviceId } := by
    rw [keyEventDispatcher_releaseButtons]
    exact congrArg Prod.fst
      (d.dispatchKeyUpEventsByDeviceId_eq deviceId timeStamp h.nodup s.manipulator.queue)
  have hbuttons : p.pressedButtons = makeHidReportButtons queue.pointingButtonManager := by
    simp only [p, releaseButtons]
    split_ifs with hchanged
    · rfl
    · exact not_not.mp hchanged
  obtain ⟨hreports, hreported⟩ := reports_handleDeviceUngrabbedEvent sets h deviceId queue timeStamp
  have hpressed :
      (s.manipulator.handleDeviceUngrabbedEvent deviceId queue timeStamp).pressedButtons =
      makeHidReportButtons queue.pointingButtonManager := hbuttons
  rw [hprocess]
  refine ⟨?_, fun fuel hfuel => hloop hfuel, hnodup,
    fun hpages => KeyEventDispatcher.length_postKeyUps hpages _ _, ?_, hreported,
    fun k hk => ?_, fun m hm => ?_, ?_, ?_, fun e he => ?_⟩
  · rw [Karabiner.Queue.IsFreeOf, hcopy.1, hcopy.2]
    exact s.output.queue.isFreeOf_erase deviceId
  · dsimp only
    rw [hpressed]
    exact hreports
  · have hsub := KeyEventDispatcher.pressedKeys_dispatchModifierKeyEvent p.keyEventDispatcher
      queue.modifierFlagManager p.queue timeStamp
    have hmem := hsub.subset hk
    rw [hdispatcher] at hmem
    simpa using (List.mem_filter.mp hmem).2
  · rw [hcopy.1]
    exact KeyEventDispatcher.mem_dispatchModifierKeyEvent p.keyEventDispatcher p.queue
      queue.modifierFlagManager timeStamp hm
  · rw [hcopy.1]
    exact KeyEventDispatcher.modifiers_dispatchModifierKeyEvent sets hp queue.modifierFlagManager
      timeStamp
  · rw [hcopy.2]
    exact hbuttons
  · simpa using (List.mem_filter.mp he).2

end PostEventToVirtualDevices

/-! ### All stages -/

open PostEventToVirtualDevices in
/-- **Ungrabbing a device releases everything it holds**: in every stage of basic manipulators, and
in every reachable state of the final stage. -/
theorem deviceUngrabbed_releases [HidReport] [MachTimebase] (sets : HidReport.ContainersAreSets) :
    (∀ (c : Connection) (front : Entry) (rest : List Entry) (now : AbsoluteTime) (reorder : Bool),
      c.input.events = front :: rest → front.event = .deviceUngrabbed →
      let c' := c.manipulate now reorder
      List.Forall₂ (fun slot slot' => slot'.serial = slot.serial ∧
        Basic.Released front.deviceId slot.basic slot'.basic)
        c.manager.manipulators c'.manager.manipulators ∧
      c'.output.queue.IsFreeOf front.deviceId) ∧
    ∀ (world : World) (is : List PostEventToVirtualDevices.Input) (front : Entry),
      front.event = .deviceUngrabbed →
      let s := Machine.run PostEventToVirtualDevices.step (Stage.initial world) is
      Ungrabbed s (processFront s front) front.deviceId front.eventTimeStamp.timeStamp :=
  ⟨fun _ _ _ now reorder hevents hevent =>
      Connection.manipulate_deviceUngrabbed hevents hevent now reorder,
    fun world is _ hevent => ungrabbed_processFront sets (isCoherent_run_step sets world is) hevent⟩

/-- The device is ungrabbed. -/
def deviceUngrabbedEntry : Entry :=
  ⟨1, ⟨1, 0⟩, .deviceUngrabbed, .single, .deviceUngrabbed, .original, false, .valid⟩

end Karabiner

namespace Karabiner.PostEventToVirtualDevices

/-- `deviceUngrabbed_releases` with finite sets as the containers, while the key `a` is held. -/
theorem deviceUngrabbed_releases_finsets :
    letI := HidReport.finsets
    letI : MachTimebase := ⟨1, 1⟩
    letI := Exprtk.singleVariable
    letI : SystemClock := ⟨fun _ => 0⟩
    let s := Machine.run step (Stage.initial .initial)
      [.processFront (keyDown Usage.KeyboardOrKeypad.keyboardA 0)]
    s.manipulator.keyEventDispatcher.usagesOf 1 =
        [⟨UsagePage.keyboardOrKeypad, Usage.KeyboardOrKeypad.keyboardA⟩] ∧
      Ungrabbed s (processFront s deviceUngrabbedEntry) 1 1 :=
  letI := HidReport.finsets
  letI : MachTimebase := ⟨1, 1⟩
  letI := Exprtk.singleVariable
  letI : SystemClock := ⟨fun _ => 0⟩
  ⟨rfl, (deviceUngrabbed_releases HidReport.finsets_containersAreSets).2 .initial
    [.processFront (keyDown Usage.KeyboardOrKeypad.keyboardA 0)] deviceUngrabbedEntry rfl⟩

end Karabiner.PostEventToVirtualDevices
