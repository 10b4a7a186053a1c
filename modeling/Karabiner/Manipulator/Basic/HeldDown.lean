import Karabiner.Manipulator.Basic.Balance

/-!
# The timer of `to_if_held_down`

A callback of `to_if_held_down` acts on the press that set it up, which it knows by a weak pointer.
A key_down and a key_up of the manipulator cancel the callback by the current id.  The ungrabbing of
a device does not; it only drops the press from the list, and the weak pointer can still be locked
when the press has a from event of another device, or when `to_delayed_action` has not yet been
invoked or canceled and keeps the press alive.

* `Basic.TimerSound` — the invariant: a live timer is for a press that its key holds.
* `Basic.run_heldDown` — **a callback only posts for a held key**, unless an ungrabbing leaves a
  press behind.
-/

namespace Karabiner

namespace Basic

/-- A press of the manipulator that the key of an entry holds, before its key_up. -/
structure HeldBy (b : Basic) (front : Entry) (id : ℕ) (m : ManipulatedOriginalEvent) : Prop where
  mem : id ∈ b.manipulatedOriginalEvents
  held : front.fromEvent ∈ m.fromEvents
  posted : m.keyUpPosted = false

/-- The current timer is for a press set up by the entry. -/
structure Armed (b : Basic) (front : Entry) (id : ℕ) (m : ManipulatedOriginalEvent) : Prop where
  definition : b.definition.toIfHeldDown.isSome = true
  pending : b.toIfHeldDown.currentId ∈ b.toIfHeldDown.pending
  front : b.toIfHeldDown.frontInputEvent = some front
  current : b.toIfHeldDown.currentManipulatedOriginalEvent = some id
  object : b.objects[id]? = some m

/-- A current timer that can lock its weak pointer is for a press that its key holds. -/
structure TimerSound (b : Basic) : Prop where
  le : ∀ id ∈ b.toIfHeldDown.pending, id ≤ b.toIfHeldDown.currentId
  live : ∀ {front id m}, b.Armed front id m → b.alive id = true → b.HeldBy front id m

/-! ### What does not matter to a timer -/

/-- The presses and the timer stay as they are, except that `to_delayed_action` may let its press
go. -/
structure Calm (b b' : Basic) : Prop where
  definition : b'.definition = b.definition
  timer : b'.toIfHeldDown = b.toIfHeldDown
  list : b'.manipulatedOriginalEvents = b.manipulatedOriginalEvents
  delayed : ∀ id, b'.toDelayedAction.currentManipulatedOriginalEvent = some id →
    b.toDelayedAction.currentManipulatedOriginalEvent = some id
  objects : ∀ (id : ℕ) (m' : ManipulatedOriginalEvent), b'.objects[id]? = some m' →
    ∃ m, b.objects[id]? = some m ∧ m'.fromEvents = m.fromEvents ∧ m'.keyUpPosted = m.keyUpPosted

namespace Calm

variable {b b' b'' : Basic}

theorem refl (b : Basic) : Calm b b :=
  ⟨rfl, rfl, rfl, fun _ h => h, fun _ m' h => ⟨m', h, rfl, rfl⟩⟩

theorem trans (h : Calm b b') (h' : Calm b' b'') : Calm b b'' where
  definition := h'.definition.trans h.definition
  timer := h'.timer.trans h.timer
  list := h'.list.trans h.list
  delayed id hid := h.delayed id (h'.delayed id hid)
  objects id m'' hm'' := by
    obtain ⟨m', hm', hfrom', hposted'⟩ := h'.objects id m'' hm''
    obtain ⟨m, hm, hfrom, hposted⟩ := h.objects id m' hm'
    exact ⟨m, hm, hfrom'.trans hfrom, hposted'.trans hposted⟩

/-- A press that is alive after a calm change was so before. -/
theorem alive (h : Calm b b') {id : ℕ} (hid : b'.alive id = true) : b.alive id = true := by
  simp only [Basic.alive, Bool.or_eq_true, decide_eq_true_eq, h.list] at hid ⊢
  exact hid.imp_right (h.delayed id)

/-- What does not matter to a timer keeps it sound. -/
theorem timerSound (h : Calm b b') (hb : b.TimerSound) : b'.TimerSound where
  le id hid := by
    rw [h.timer] at hid ⊢
    exact hb.le id hid
  live {front id m'} harmed halive := by
    obtain ⟨m, hm, hfrom, hposted⟩ := h.objects id m' harmed.object
    have hheld : b.HeldBy front id m := hb.live
      ⟨h.definition ▸ harmed.definition, h.timer ▸ harmed.pending, h.timer ▸ harmed.front,
        h.timer ▸ harmed.current, hm⟩ (h.alive halive)
    exact ⟨h.list ▸ hheld.mem, hfrom ▸ hheld.held, hposted.trans hheld.posted⟩

end Calm

/-- A press that is no longer alone is as armed as before. -/
theorem calm_unsetAloneIfNeeded (b : Basic) (event : Event) (eventType : EventType) :
    Calm b (b.unsetAloneIfNeeded event eventType) := by
  unfold unsetAloneIfNeeded
  split_ifs
  · refine ⟨rfl, rfl, rfl, fun _ h => h, fun id m' hm' => ?_⟩
    simp only [mapObjects, List.getElem?_mapIdx, Option.map_eq_some_iff] at hm'
    obtain ⟨m, hm, rfl⟩ := hm'
    refine ⟨m, hm, ?_⟩
    split_ifs <;> exact ⟨rfl, rfl⟩
  · exact .refl b

variable [Exprtk] [SystemClock] [MachTimebase]

omit [SystemClock] [MachTimebase] in
/-- Posting on behalf of a press. -/
theorem calm_send (b : Basic) (id : ℕ) (output : Output) {f : EventSender → EventSender}
    (hf : ∀ s, EventSender.Keeps s (f s)) : Calm b (b.send id output f).1 := by
  obtain ⟨htimer, hdefinition⟩ := b.send_toIfHeldDown id output f
  refine ⟨hdefinition, htimer, ?_, fun i hi => ?_, fun j m' hm' => ?_⟩
  · unfold send
    cases b.objects[id]? <;> rfl
  · unfold send at hi
    cases hm : b.objects[id]? <;> rwa [hm] at hi
  · rcases getElem?_send hm' with ⟨-, hm⟩ | ⟨rfl, m, hm, rfl⟩
    · exact ⟨m', hm, rfl, rfl⟩
    · have hframe := (hf { current := m, output := output }).frame
      have hfrom := congrArg ManipulatedOriginalEvent.fromEvents hframe
      have hposted := congrArg ManipulatedOriginalEvent.keyUpPosted hframe
      exact ⟨m, hm, hfrom, hposted⟩

/-- What `to_delayed_action` posts does not arm or disarm. -/
theorem calm_postDelayedEvents (b : Basic) (events : List ToEventDefinition) (output : Output) :
    Calm b (b.postDelayedEvents events output).1 := by
  have hlet (b' : Basic) :
      Calm b' { b' with toDelayedAction.currentManipulatedOriginalEvent := none } :=
    ⟨rfl, rfl, rfl, fun _ h => (by cases h), fun _ m' h => ⟨m', h, rfl, rfl⟩⟩
  unfold postDelayedEvents
  dsimp only
  split
  · rename_i front id _ _
    exact (b.calm_send id output fun s =>
      BasicDefinition.keeps_postDelayedAction front events s).trans (hlet _)
  · exact hlet b

theorem calm_cancelDelayedAction (b : Basic) (front : Entry) (output : Output) :
    Calm b (b.cancelDelayedAction front output).1 := by
  have hcases := b.cancelsDelayedAction front output
  generalize b.cancelDelayedAction front output = r at hcases
  cases hcases with
  | idle => exact .refl b
  | @posts b₁ _ hnext =>
      have hcalm : Calm b b₁ := by
        rw [hnext]
        exact ⟨rfl, rfl, rfl, fun _ h => h, fun _ m' h => ⟨m', h, rfl, rfl⟩⟩
      exact hcalm.trans (b₁.calm_postDelayedEvents _ output)

theorem calm_fireDelayedAction (b : Basic) (delayedActionId : ℕ) (output : Output) :
    Calm b (b.fireDelayedAction delayedActionId output).1 := by
  have hcases := b.firesDelayedAction delayedActionId output
  generalize b.fireDelayedAction delayedActionId output = r at hcases
  cases hcases with
  | cancelled => exact .refl b
  | idle => exact ⟨rfl, rfl, rfl, fun _ h => h, fun _ m' h => ⟨m', h, rfl, rfl⟩⟩
  | @posts b₁ _ herased =>
      have hcalm : Calm b b₁ := by
        rw [herased]
        exact ⟨rfl, rfl, rfl, fun _ h => h, fun _ m' h => ⟨m', h, rfl, rfl⟩⟩
      exact hcalm.trans (b₁.calm_postDelayedEvents _ output)

/-! ### The steps of a manipulator -/

namespace TimerSound

variable {b : Basic}

omit [Exprtk] [SystemClock] [MachTimebase] in
/-- Once the current id has moved past all pending ones, no timer is armed. -/
theorem not_armed_of_succ (h : ∀ id ∈ b.toIfHeldDown.pending, id ≤ b.toIfHeldDown.currentId) :
    b.toIfHeldDown.currentId + 1 ∉ b.toIfHeldDown.pending := fun hmem =>
  absurd (h _ hmem) (by omega)

omit [Exprtk] [SystemClock] [MachTimebase] in
/-- A cancellation leaves no timer behind. -/
theorem cancelHeldDown (h : b.TimerSound) (front : Entry) :
    (b.cancelHeldDown front).TimerSound := by
  unfold Basic.cancelHeldDown
  split_ifs
  · exact ⟨fun id hid => (h.le id hid).trans (Nat.le_succ _),
      fun harmed _ => absurd harmed.pending (not_armed_of_succ h.le)⟩
  · exact h

/-- What every entry does keeps the timer sound. -/
theorem observe (h : b.TimerSound) (front : Entry) (output : Output) :
    (b.observe front output).1.TimerSound :=
  (calm_cancelDelayedAction _ front output).timerSound
    (((b.calm_unsetAloneIfNeeded front.event front.eventType).timerSound h).cancelHeldDown front)

omit [Exprtk] [SystemClock] [MachTimebase] in
/-- Setting the timers up at the end of `manipulate`. -/
theorem setup {front : Entry} {id : ℕ}
    (hle : ∀ id ∈ b.toIfHeldDown.pending, id ≤ b.toIfHeldDown.currentId)
    (hheld : front.eventType = .keyDown → ∀ m, b.objects[id]? = some m → b.HeldBy front id m) :
    ((b.setupHeldDown front id).setupDelayedAction front id).TimerSound := by
  have harmed (front' : Entry) (id' : ℕ) (m' : ManipulatedOriginalEvent)
      (h : (b.setupHeldDown front id).Armed front' id' m') :
      (b.setupHeldDown front id).HeldBy front' id' m' := by
    unfold setupHeldDown at h ⊢
    cases hdef : b.definition.toIfHeldDown with
    | none =>
        simp only [hdef] at h
        have hsome := h.definition
        rw [hdef] at hsome
        cases hsome
    | some toEvents =>
        simp only [hdef] at h ⊢
        split_ifs at h ⊢ with hskip
        · exact absurd h.pending (not_armed_of_succ hle)
        · have hdown : front.eventType = .keyDown := by
            by_contra hne
            exact hskip (by simp [hne])
          obtain rfl : front = front' := Option.some.inj h.front
          obtain rfl : id = id' := Option.some.inj h.current
          have hheld := hheld hdown m' h.object
          exact ⟨hheld.mem, hheld.held, hheld.posted⟩
  have hle' : ∀ i ∈ (b.setupHeldDown front id).toIfHeldDown.pending,
      i ≤ (b.setupHeldDown front id).toIfHeldDown.currentId := by
    have hsucc : ∀ i ∈ b.toIfHeldDown.pending, i ≤ b.toIfHeldDown.currentId + 1 := fun i hi =>
      (hle i hi).trans (Nat.le_succ _)
    unfold setupHeldDown
    split
    · exact hle
    · dsimp only
      split_ifs
      · exact hsucc
      · intro i hi
        rcases List.mem_append.mp hi with hi | hi
        · exact hsucc i hi
        · exact (List.mem_singleton.mp hi).le
  unfold setupDelayedAction
  split
  · exact ⟨hle', fun h _ => harmed _ _ _ h⟩
  · dsimp only
    split_ifs
    · exact ⟨hle', fun h _ => harmed _ _ _ h⟩
    · refine ⟨hle', fun h _ => ?_⟩
      have hheld := harmed _ _ _ ⟨h.definition, h.pending, h.front, h.current, h.object⟩
      exact ⟨hheld.mem, hheld.held, hheld.posted⟩

omit [SystemClock] [MachTimebase] in
/-- The end of `manipulate`. -/
theorem finish {front : Entry} {id : ℕ} {f : Entry → EventSender → EventSender}
    (hle : ∀ id ∈ b.toIfHeldDown.pending, id ≤ b.toIfHeldDown.currentId)
    (hheld : front.eventType = .keyDown →
      (∀ m, b.objects[id]? = some m → b.HeldBy front id m) ∧
        ∀ front s, EventSender.Keeps s (f front s))
    (output : Output) : (b.finish front id f output).basic.TimerSound := by
  have htimer := (b.send_toIfHeldDown id output (f { front with validity := .invalid })).1
  unfold Basic.finish
  dsimp only
  refine setup ?_ fun hdown m' hm' => ?_
  · rw [htimer]
    exact hle
  · obtain ⟨hheld, hkeeps⟩ := hheld hdown
    have hcalm := b.calm_send id output (hkeeps { front with validity := .invalid })
    obtain ⟨m, hm, hfrom, hposted⟩ := hcalm.objects id m' hm'
    have h := hheld m hm
    exact ⟨hcalm.list ▸ h.mem, hfrom ▸ h.held, hposted.trans h.posted⟩

/-- A capture sets the timer up for a new press, which the key of the front entry holds. -/
theorem capture (h : b.TimerSound) (front : Entry) {fromEvents : Finset FromEvent}
    (hfront : front.fromEvent ∈ fromEvents) (fromMandatoryModifiers : List ModifierFlag)
    (output : Output) :
    (b.capture front fromEvents fromMandatoryModifiers output).basic.TimerSound := by
  unfold Basic.capture
  refine finish (b := b.pushBack _) h.le (fun _ => ⟨fun m hm => ?_, fun front s => ?_⟩) output
  · rw [pushBack, List.getElem?_concat_length] at hm
    obtain rfl := Option.some.inj hm
    exact ⟨List.mem_append_right _ (List.mem_singleton_self _), hfront, rfl⟩
  · exact BasicDefinition.keeps_postTo front b.definition.to_ s

/-- A key_up that releases a from event cancels the timer. -/
theorem released (h : b.TimerSound) {front : Entry} (up : front.eventType = .keyUp) (id : ℕ)
    (output : Output) :
    ((b.eraseFromEvent id front.fromEvent).finish front id b.definition.postKeyUp
      output).basic.TimerSound := by
  refine finish ?_ (fun hdown => absurd (hdown.symm.trans up) (by decide)) output
  unfold eraseFromEvent
  split <;> exact h.le

/-- The from events of a captured press include the one of the front entry. -/
theorem manipulate (h : b.TimerSound) (front : Entry) (rest : List Entry) (output : Output)
    (now : AbsoluteTime) : (b.manipulate front rest output now).basic.TimerSound := by
  have hobserve := h.observe front output
  have hcases := b.manipulates_manipulate front rest output now
  generalize b.observe front output = observed at hobserve hcases
  obtain ⟨b₁, output₁⟩ := observed
  dsimp only at hobserve hcases
  generalize b.manipulate front rest output now = r at hcases
  cases hcases with
  | passed => exact hobserve
  | waits => exact hobserve
  | captured hdelayed _ valid down target _ hdetect =>
      have hmem := (mem_detect_iff hdetect front.fromEvent).mpr
        ⟨front, collects_front valid down target rest, rfl⟩
      rcases hdelayed with rfl | rfl
      · exact hobserve.capture _ hmem _ _
      · exact hobserve.capture (b₁.delayInput front) hmem _ _
  | @released id _ up => exact hobserve.released up id output₁

theorem fireHeldDown (h : b.TimerSound) (heldDownId : ℕ) (output : Output) :
    (b.fireHeldDown heldDownId output).1.TimerSound := by
  have herased : TimerSound
      { b with toIfHeldDown.pending := b.toIfHeldDown.pending.erase heldDownId } := by
    refine ⟨fun id hid => h.le id (List.mem_of_mem_erase hid), fun harmed halive => ?_⟩
    have hheld := h.live ⟨harmed.definition, List.mem_of_mem_erase harmed.pending, harmed.front,
      harmed.current, harmed.object⟩ halive
    exact ⟨hheld.mem, hheld.held, hheld.posted⟩
  have hcases := b.firesHeldDown heldDownId output
  generalize b.fireHeldDown heldDownId output = r at hcases
  cases hcases with
  | cancelled => exact h
  | idle => exact herased
  | @posts b₁ toEvents front id hb₁ =>
      exact (b₁.calm_send id output fun s =>
        BasicDefinition.keeps_postHeldDown front toEvents s).timerSound (hb₁ ▸ herased)

end TimerSound

/-! ### Runs -/

omit [SystemClock] [MachTimebase] in
/-- The ungrabbing of the device of the key that the timer is for leaves nothing of the press: all
its from events are of this device, and `to_delayed_action` has let the press go. -/
def UngrabsWhole (s : State) (i : Input) : Prop :=
  ∀ deviceId, i = .deviceUngrabbed deviceId →
    ∀ front id m, s.basic.Armed front id m → front.deviceId = deviceId →
      (∀ fe ∈ m.fromEvents, fe.deviceId = deviceId) ∧
        s.basic.toDelayedAction.currentManipulatedOriginalEvent ≠ some id

omit [Exprtk] [SystemClock] [MachTimebase] in
/-- A device that takes a whole press with it leaves no armed press without its key. -/
theorem TimerSound.handleDeviceUngrabbedEvent {b : Basic} (h : b.TimerSound) {deviceId : DeviceId}
    (hwhole : ∀ front id m, b.Armed front id m → front.deviceId = deviceId →
      (∀ fe ∈ m.fromEvents, fe.deviceId = deviceId) ∧
        b.toDelayedAction.currentManipulatedOriginalEvent ≠ some id) :
    (b.handleDeviceUngrabbedEvent deviceId).TimerSound := by
  refine ⟨h.le, fun {front id m'} harmed halive => ?_⟩
  have hobjects := harmed.object
  simp only [Basic.handleDeviceUngrabbedEvent, mapObjects, List.getElem?_mapIdx,
    Option.map_eq_some_iff] at hobjects
  obtain ⟨m, hm, hm'⟩ := hobjects
  have hlist : id ∈ (b.handleDeviceUngrabbedEvent deviceId).manipulatedOriginalEvents ↔
      id ∈ b.manipulatedOriginalEvents ∧ m'.fromEvents ≠ ∅ := by
    rw [manipulatedOriginalEvents_handleDeviceUngrabbedEvent, List.mem_filter, harmed.object]
    simp
  have harmed' : b.Armed front id m :=
    ⟨harmed.definition, harmed.pending, harmed.front, harmed.current, hm⟩
  have halive' : (id ∈ b.manipulatedOriginalEvents ∧ m'.fromEvents ≠ ∅) ∨
      b.toDelayedAction.currentManipulatedOriginalEvent = some id := by
    rw [← hlist]
    have hor : id ∈ (b.handleDeviceUngrabbedEvent deviceId).manipulatedOriginalEvents ∨
        (b.handleDeviceUngrabbedEvent deviceId).toDelayedAction.currentManipulatedOriginalEvent =
          some id := by simpa [alive] using halive
    exact hor
  have hheld := h.live harmed' (by simpa [alive] using halive'.imp_left And.left)
  rw [if_pos hheld.mem] at hm'
  by_cases hdevice : front.deviceId = deviceId
  · -- the press is gone
    obtain ⟨hwhole, hdelayed⟩ := hwhole front id m harmed' hdevice
    have hempty : m'.fromEvents = ∅ := by
      rw [← hm']
      exact Finset.filter_eq_empty_iff.mpr fun fe hfe => not_not.mpr (hwhole fe hfe)
    rcases halive' with ⟨-, hne⟩ | hcurrent
    · exact absurd hempty hne
    · exact absurd hcurrent hdelayed
  · have hfrom : front.fromEvent ∈ m'.fromEvents := by
      rw [← hm']
      exact Finset.mem_filter.mpr ⟨hheld.held, hdevice⟩
    refine ⟨hlist.mpr ⟨hheld.mem, Finset.ne_empty_of_mem hfrom⟩, hfrom, ?_⟩
    rw [← hm']
    exact hheld.posted

/-- Every step that ungrabs whole presses keeps the timer sound. -/
theorem timerSound_step {s : State} (h : s.basic.TimerSound) {i : Input} (hi : UngrabsWhole s i) :
    (step s i).basic.TimerSound := by
  cases i with
  | manipulate front rest now => exact h.manipulate front rest s.output now
  | deviceUngrabbed deviceId => exact h.handleDeviceUngrabbedEvent (hi deviceId rfl)
  | pointingDeviceEventFromEventTap front =>
      exact (s.basic.calm_unsetAloneIfNeeded front.originalEvent front.eventType).timerSound h
  | setValidity validity =>
      have hcalm : Calm s.basic { s.basic with validity := validity } :=
        ⟨rfl, rfl, rfl, fun _ h => h, fun _ m' h => ⟨m', h, rfl, rfl⟩⟩
      exact hcalm.timerSound h
  | fireHeldDown id => exact h.fireHeldDown id s.output
  | fireDelayedAction id => exact (s.basic.calm_fireDelayedAction id s.output).timerSound h
  | outside output => exact h

/-- A callback that posts anything acts on a press that it can lock. -/
theorem exists_of_fireHeldDown {b : Basic} {heldDownId : ℕ} {output : Output}
    (h : (b.fireHeldDown heldDownId output).2 ≠ output) :
    ∃ front id m, b.Armed front id m ∧ b.alive id = true := by
  have hcases := b.firesHeldDown heldDownId output
  generalize b.fireHeldDown heldDownId output = r at h hcases
  cases hcases with
  | cancelled => exact absurd rfl h
  | idle => exact absurd rfl h
  | @posts b₁ toEvents front id herased hdef hpending hid hfront hpress halive =>
      have hobjects : b₁.objects = b.objects := by rw [herased]
      cases hm : b.objects[id]? with
      | none =>
          unfold send at h
          simp only [hobjects, hm] at h
          exact absurd rfl h
      | some m =>
          refine ⟨front, id, m, ⟨Option.isSome_of_eq_some hdef, ?_, hfront, hpress, hm⟩, halive⟩
          rwa [hid]

/-- **A callback of `to_if_held_down` only posts for a held key**: the press is in the list, the key
whose key_down has set the callback up still holds it, and its key_up is still to be posted.  This
holds in every run in which no ungrabbing leaves such a press behind. -/
theorem run_heldDown (definition : BasicDefinition) (output : Output) (is : List Input)
    (hguard : Machine.Steps step UngrabsWhole (.initial definition output) is) (heldDownId : ℕ) :
    let s := Machine.run step (.initial definition output) is
    (s.basic.fireHeldDown heldDownId s.output).2 ≠ s.output →
      ∃ front id m, s.basic.Armed front id m ∧ s.basic.HeldBy front id m := by
  have hsound : (Machine.run step (.initial definition output) is).basic.TimerSound :=
    Machine.steps_invariant (fun (s : State) i hi (h : s.basic.TimerSound) => timerSound_step h hi)
      ⟨by simp [State.initial], fun h => by simpa [State.initial] using h.pending⟩ hguard
  intro s hposts
  obtain ⟨front, id, m, harmed, halive⟩ := exists_of_fireHeldDown hposts
  exact ⟨front, id, m, harmed, hsound.live harmed halive⟩

end Basic

/-! ### A key that is held -/

/-- A manipulator from the key `a` to `b`, and to `c` if held down. -/
def heldDown (toDelayedAction : Option ToDelayedAction) : BasicDefinition :=
  { mapped (.momentarySwitchEvent ⟨⟨UsagePage.keyboardOrKeypad, 5⟩⟩) with
    toIfHeldDown := some
      [{ eventDefinition := .momentarySwitchEvent ⟨⟨UsagePage.keyboardOrKeypad, 6⟩⟩ }]
    toDelayedAction := toDelayedAction }

end Karabiner

namespace Karabiner.Basic

/-- The key `a` is held until the callback is due. -/
theorem run_heldDown_pressed :
    ∃ (_ : Exprtk) (_ : SystemClock) (_ : MachTimebase) (front : Entry) (id : ℕ)
      (m : ManipulatedOriginalEvent),
      let s := Machine.run step (.initial (heldDown none) ⟨{}, World.initial⟩)
        [.manipulate (typed .keyDown) [] 0]
      s.basic.Armed front id m ∧ s.basic.HeldBy front id m := by
  refine ⟨.singleVariable, ⟨fun _ => 0⟩, ⟨1, 1⟩, ?_⟩
  let _ : Exprtk := .singleVariable
  let _ : SystemClock := ⟨fun _ => 0⟩
  let _ : MachTimebase := ⟨1, 1⟩
  refine run_heldDown (heldDown none) ⟨{}, World.initial⟩ [.manipulate (typed .keyDown) [] 0]
    ⟨fun _ h => (by cases h), trivial⟩ 2 fun h => ?_
  have hlength := congrArg (fun o : Output => o.queue.events.length) h
  revert hlength
  decide

/-- The device is ungrabbed while `to_delayed_action` keeps the press, and the callback posts. -/
theorem not_heldDown_ungrabbed :
    ∃ (_ : Exprtk) (_ : SystemClock) (_ : MachTimebase),
      ¬ ∀ (definition : BasicDefinition) (output : Output) (is : List Input) (heldDownId : ℕ),
        let s := Machine.run step (.initial definition output) is
        (s.basic.fireHeldDown heldDownId s.output).2 ≠ s.output →
          ∃ front id m, s.basic.Armed front id m ∧ id ∈ s.basic.manipulatedOriginalEvents := by
  refine ⟨.singleVariable, ⟨fun _ => 0⟩, ⟨1, 1⟩, fun h => ?_⟩
  let _ : Exprtk := .singleVariable
  let _ : SystemClock := ⟨fun _ => 0⟩
  let _ : MachTimebase := ⟨1, 1⟩
  let action : ToDelayedAction :=
    { toIfInvoked := [{ eventDefinition :=
        .momentarySwitchEvent ⟨⟨UsagePage.keyboardOrKeypad, 7⟩⟩ }] }
  obtain ⟨_, id, _, -, hmem⟩ := h (heldDown (some action)) ⟨{}, World.initial⟩
    [.manipulate (typed .keyDown) [] 0, .deviceUngrabbed 1] 2 fun h => by
      have hlength := congrArg (fun o : Output => o.queue.events.length) h
      revert hlength
      decide
  have hnil : (Machine.run step (.initial (heldDown (some action)) ⟨{}, World.initial⟩)
      [.manipulate (typed .keyDown) [] 0, .deviceUngrabbed 1]).basic.manipulatedOriginalEvents =
      [] := by decide
  rw [hnil] at hmem
  cases hmem

end Karabiner.Basic
