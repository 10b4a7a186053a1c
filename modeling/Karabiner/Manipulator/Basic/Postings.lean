import Karabiner.Manipulator.Basic.Machine
import Karabiner.Manipulator.Basic.Sends

/-!
# What a manipulator posts

The entries that a manipulator appends to the output queue, whoever calls it.  `P` is what is known
of the events in the lists of the rule.  A manipulator posts the events of its lists, now or at the
key_up, modifier keys, and `stop_keyboard_repeat`, so `P` holds of everything it posts.

* `Appends` — from one state to another only entries with `P` are appended, and `P` holds of what is
  left to the key_up.
* `Basic.appends_step` — every step is such, if the list `simultaneous_options.to_after_key_up` is
  as well when the step posts it (`Basic.PostsSimultaneous`).
-/

namespace Karabiner

open EventSender

/-! ### The lists of a rule -/

/-- The lists of a rule, `simultaneous_options.to_after_key_up` apart. -/
structure BasicDefinition.AllowsLists (P : Event → Prop) (H : ℤ → Prop) (d : BasicDefinition) :
    Prop where
  to_ : Allows P H d.to_
  toAfterKeyUp : Allows P H d.toAfterKeyUp
  toIfAlone : Allows P H d.toIfAlone
  toIfHeldDown : ∀ toEvents, d.toIfHeldDown = some toEvents → Allows P H toEvents
  toDelayedAction : ∀ action, d.toDelayedAction = some action →
    Allows P H action.toIfInvoked ∧ Allows P H action.toIfCanceled

namespace Basic

variable [Exprtk]

/-- What the presses have left to the key_up. -/
def Deferred (P : Event → Prop) (b : Basic) : Prop :=
  ∀ m ∈ b.objects, ∀ e ∈ m.eventsAtKeyUp, P e.event

/-- A valid key_up takes the last from event of a press, which posts
`simultaneous_options.to_after_key_up`. -/
def PostsSimultaneous (b : Basic) (front : Entry) : Prop :=
  front.validity = .valid ∧ front.eventType = .keyUp ∧
    b.definition.from_.testEvent front.event = true ∧
    ∃ id m, b.manipulatedOriginalEvents.find? (b.fromEventExists front.fromEvent) = some id ∧
      b.objects[id]? = some m ∧ m.fromEvents.erase front.fromEvent = ∅

/-- The manipulator keeps its definition and appends entries with `P`. -/
structure Appends (P : Event → Prop) (b : Basic) (o : Output) (b' : Basic) (o' : Output) :
    Prop where
  definition : b'.definition = b.definition
  appended : ∃ new, o'.queue.events = o.queue.events ++ new ∧ ∀ e ∈ new, P e.event
  deferred : Deferred P b'

namespace Appends

variable {P : Event → Prop} {b b' b'' : Basic} {o o' o'' : Output}

theorem refl (h : Deferred P b) (o : Output) : Appends P b o b o :=
  ⟨rfl, ⟨[], by simp, by simp⟩, h⟩

theorem trans (h : Appends P b o b' o') (h' : Appends P b' o' b'' o'') :
    Appends P b o b'' o'' := by
  obtain ⟨new, hnew, hallowed⟩ := h.appended
  obtain ⟨new', hnew', hallowed'⟩ := h'.appended
  refine ⟨h'.definition.trans h.definition, ⟨new ++ new', ?_, fun e he => ?_⟩, h'.deferred⟩
  · rw [hnew', hnew, List.append_assoc]
  · exact (List.mem_append.mp he).elim (hallowed e) (hallowed' e)

/-- Nothing is posted, and the presses leave nothing else to the key_up. -/
theorem of_deferred (h : Deferred P b) (definition : b'.definition = b.definition)
    (objects : ∀ m' ∈ b'.objects, ∃ m ∈ b.objects, m'.eventsAtKeyUp = m.eventsAtKeyUp)
    (events : o'.queue.events = o.queue.events) : Appends P b o b' o' := by
  refine ⟨definition, ⟨[], by simp [events], by simp⟩, fun m' hm' => ?_⟩
  obtain ⟨m, hm, heq⟩ := objects m' hm'
  rw [heq]
  exact h m hm

/-- The same presses. -/
theorem of_objects (h : Deferred P b) (definition : b'.definition = b.definition)
    (objects : b'.objects = b.objects) (events : o'.queue.events = o.queue.events) :
    Appends P b o b' o' :=
  of_deferred h definition (fun m' hm' => ⟨m', objects ▸ hm', rfl⟩) events

end Appends

/-! ### The parts of `manipulate` -/

variable {P : Event → Prop} {H : ℤ → Prop} {b : Basic}

/-- Presses may change in whatever they do not post. -/
theorem appends_mapObjects (h : Deferred P b)
    {f : ManipulatedOriginalEvent → ManipulatedOriginalEvent}
    (hf : ∀ m, (f m).eventsAtKeyUp = m.eventsAtKeyUp) (o : Output) :
    Appends P b o (b.mapObjects f) o := by
  refine .of_deferred h rfl (fun m' hm' => ?_) rfl
  obtain ⟨id, hid, rfl⟩ := List.mem_mapIdx.mp hm'
  refine ⟨b.objects[id], List.getElem_mem hid, ?_⟩
  split_ifs
  · exact hf _
  · rfl

/-- Presses that are no longer alone post nothing by that. -/
theorem appends_unsetAloneIfNeeded (h : Deferred P b) (event : Event) (eventType : EventType)
    (o : Output) : Appends P b o (b.unsetAloneIfNeeded event eventType) o := by
  unfold unsetAloneIfNeeded
  split_ifs
  · exact appends_mapObjects h (f := fun m => { m with alone := false }) (fun _ => rfl) o
  · exact .refl h o

/-- Canceling `to_if_held_down` posts nothing. -/
theorem appends_cancelHeldDown (h : Deferred P b) (front : Entry) (o : Output) :
    Appends P b o (b.cancelHeldDown front) o := by
  unfold cancelHeldDown
  split_ifs
  · exact .of_objects h rfl rfl rfl
  · exact .refl h o

theorem appends_setupHeldDown (h : Deferred P b) (front : Entry) (id : ℕ) (o : Output) :
    Appends P b o (b.setupHeldDown front id) o := by
  unfold setupHeldDown
  split
  · exact .refl h o
  · dsimp only
    split_ifs <;> exact .of_objects h rfl rfl rfl

theorem appends_setupDelayedAction (h : Deferred P b) (front : Entry) (id : ℕ) (o : Output) :
    Appends P b o (b.setupDelayedAction front id) o := by
  unfold setupDelayedAction
  split
  · exact .refl h o
  · dsimp only
    split_ifs
    · exact .refl h o
    · exact .of_objects h rfl rfl rfl

theorem appends_eraseFromEvent (h : Deferred P b) (id : ℕ) (fe : FromEvent) (o : Output) :
    Appends P b o (b.eraseFromEvent id fe) o := by
  unfold eraseFromEvent
  cases hm : b.objects[id]? with
  | none => exact .refl h o
  | some m =>
      refine .of_deferred h rfl (fun m' hm' => ?_) rfl
      rcases List.mem_or_eq_of_mem_set hm' with hm' | rfl
      · exact ⟨m', hm', rfl⟩
      · exact ⟨m, List.mem_of_getElem? hm, rfl⟩

theorem appends_handleDeviceUngrabbedEvent (h : Deferred P b) (deviceId : DeviceId) (o : Output) :
    Appends P b o (b.handleDeviceUngrabbedEvent deviceId) o := by
  have hmap := appends_mapObjects h (f := fun m =>
    { m with fromEvents := m.fromEvents.filter fun fe => fe.deviceId ≠ deviceId }) (fun _ => rfl) o
  exact ⟨rfl, hmap.appended, hmap.deferred⟩

variable [SystemClock] [MachTimebase]

/-- Posting on behalf of a press. -/
theorem appends_send (h : Deferred P b) (id : ℕ) (o : Output) (front : Entry)
    {f : EventSender → EventSender}
    (hf : ∀ m, b.objects[id]? = some m → (∀ e ∈ m.eventsAtKeyUp, P e.event) →
      Sends front P H { current := m, output := o } (f { current := m, output := o })) :
    Appends P b o (b.send id o f).1 (b.send id o f).2.1 := by
  unfold send
  cases hm : b.objects[id]? with
  | none => exact .refl h o
  | some m =>
      have hdeferred := h m (List.mem_of_getElem? hm)
      have hsends := hf m hm hdeferred
      obtain ⟨new, hbatch, -⟩ := hsends.exists_batch
      refine ⟨rfl, ⟨_, hbatch.events, fun e he => ?_⟩, fun m' hm' => ?_⟩
      · obtain ⟨e', he', rfl⟩ := List.mem_map.mp he
        exact hbatch.allowed e' he'
      · rcases List.mem_or_eq_of_mem_set hm' with hm' | rfl
        · exact h m' hm'
        · exact hsends.deferred hdeferred

/-- The end of `manipulate`. -/
theorem appends_finish (h : Deferred P b) (front : Entry) (id : ℕ)
    {f : Entry → EventSender → EventSender} (o : Output)
    (hf : ∀ m front, b.objects[id]? = some m → (∀ e ∈ m.eventsAtKeyUp, P e.event) →
      Sends front P H { current := m, output := o } (f front { current := m, output := o })) :
    Appends P b o (b.finish front id f o).basic (b.finish front id f o).output := by
  let front' : Entry := { front with validity := .invalid }
  have hsend := appends_send h id o front' (fun m => hf m front')
  have hheld := hsend.trans (appends_setupHeldDown hsend.deferred front' id _)
  have hdelayed := hheld.trans (appends_setupDelayedAction hheld.deferred front' id _)
  refine hdelayed.trans (.of_objects hdelayed.deferred rfl rfl ?_)
  unfold finish
  dsimp only
  split_ifs <;> rfl

omit [Exprtk] [SystemClock] [MachTimebase] in
/-- The press of an erased from event. -/
theorem exists_of_getElem?_eraseFromEvent {b : Basic} {id : ℕ} {fe : FromEvent}
    {m : ManipulatedOriginalEvent} (hm : (b.eraseFromEvent id fe).objects[id]? = some m) :
    ∃ m', b.objects[id]? = some m' ∧ { m' with fromEvents := m'.fromEvents.erase fe } = m := by
  unfold eraseFromEvent at hm
  cases hm' : b.objects[id]? with
  | none =>
      simp only [hm'] at hm
      cases hm
  | some m' =>
      simp only [hm'] at hm
      rw [List.getElem?_set_self (List.getElem?_eq_some_iff.mp hm').1] at hm
      exact ⟨m', rfl, Option.some.inj hm⟩

/-! ### What the parts post -/

section Modifiers

variable (modifiers : AllowsModifiers P)

include modifiers

/-- The delayed events are from one of the lists. -/
theorem appends_postDelayedEvents (h : Deferred P b) {events : List ToEventDefinition}
    (hevents : Allows P H events) (o : Output) :
    Appends P b o (b.postDelayedEvents events o).1 (b.postDelayedEvents events o).2 := by
  unfold postDelayedEvents
  dsimp only
  split
  · rename_i front id _ _
    have hsend := appends_send h id o front (H := H)
      (f := BasicDefinition.postDelayedAction front events)
      fun m _ _ => BasicDefinition.sends_postDelayedAction modifiers hevents _
    exact hsend.trans (.of_objects hsend.deferred rfl rfl rfl)
  · exact .of_objects h rfl rfl rfl

theorem appends_cancelDelayedAction (h : Deferred P b) (hlists : b.definition.AllowsLists P H)
    (front : Entry) (o : Output) :
    Appends P b o (b.cancelDelayedAction front o).1 (b.cancelDelayedAction front o).2 := by
  have hcases := b.cancelsDelayedAction front o
  generalize b.cancelDelayedAction front o = r at hcases
  cases hcases with
  | idle => exact .refl h o
  | @posts b₁ action hnext haction =>
      have hsame : Appends P b o b₁ o := by
        rw [hnext]
        exact .of_objects h rfl rfl rfl
      exact hsame.trans (appends_postDelayedEvents modifiers hsame.deferred
        (hlists.toDelayedAction action haction).2 o)

/-- What every entry does posts from the lists. -/
theorem appends_observe (h : Deferred P b) (hlists : b.definition.AllowsLists P H) (front : Entry)
    (o : Output) : Appends P b o (b.observe front o).1 (b.observe front o).2 := by
  have halone := appends_unsetAloneIfNeeded h front.event front.eventType o
  have hheld := halone.trans (appends_cancelHeldDown halone.deferred front o)
  exact hheld.trans (appends_cancelDelayedAction modifiers hheld.deferred
    (hheld.definition ▸ hlists) front o)

/-- What the timer of `to_if_held_down` posts. -/
theorem appends_fireHeldDown (h : Deferred P b) (hlists : b.definition.AllowsLists P H)
    (heldDownId : ℕ) (o : Output) :
    Appends P b o (b.fireHeldDown heldDownId o).1 (b.fireHeldDown heldDownId o).2 := by
  have hcases := b.firesHeldDown heldDownId o
  generalize b.fireHeldDown heldDownId o = r at hcases
  cases hcases with
  | cancelled => exact .refl h o
  | idle => exact .of_objects h rfl rfl rfl
  | @posts b₁ toEvents front id herased htoEvents =>
      have hsame : Appends P b o b₁ o := by
        rw [herased]
        exact .of_objects h rfl rfl rfl
      exact hsame.trans (appends_send hsame.deferred id o front (H := H)
        (f := BasicDefinition.postHeldDown front toEvents) fun m _ hm =>
          BasicDefinition.sends_postHeldDown modifiers (hlists.toIfHeldDown toEvents htoEvents) hm)

/-- What the timer of `to_delayed_action` posts. -/
theorem appends_fireDelayedAction (h : Deferred P b) (hlists : b.definition.AllowsLists P H)
    (delayedActionId : ℕ) (o : Output) :
    Appends P b o (b.fireDelayedAction delayedActionId o).1
      (b.fireDelayedAction delayedActionId o).2 := by
  have hcases := b.firesDelayedAction delayedActionId o
  generalize b.fireDelayedAction delayedActionId o = r at hcases
  cases hcases with
  | cancelled => exact .refl h o
  | idle => exact .of_objects h rfl rfl rfl
  | @posts b₁ action herased haction =>
      have hsame : Appends P b o b₁ o := by
        rw [herased]
        exact .of_objects h rfl rfl rfl
      exact hsame.trans (appends_postDelayedEvents modifiers hsame.deferred
        (hlists.toDelayedAction action haction).1 o)

/-- What a captured key_down posts. -/
theorem appends_capture (h : Deferred P b) (hlists : b.definition.AllowsLists P H) (front : Entry)
    (fromEvents : Finset FromEvent) (fromMandatoryModifiers : List ModifierFlag) (o : Output) :
    Appends P b o (b.capture front fromEvents fromMandatoryModifiers o).basic
      (b.capture front fromEvents fromMandatoryModifiers o).output := by
  unfold capture
  dsimp only
  generalize hm : ManipulatedOriginalEvent.mk fromEvents fromMandatoryModifiers ∅ _ _ true false []
    false [] = m
  have hpush : Appends P b o (b.pushBack m) o := by
    refine ⟨rfl, ⟨[], by simp, by simp⟩, fun m' hm' => ?_⟩
    rcases List.mem_append.mp hm' with hm' | hm'
    · exact h m' hm'
    · rw [List.mem_singleton.mp hm', ← hm]
      exact List.forall_mem_nil _
  exact hpush.trans (appends_finish hpush.deferred front b.objects.length o
    fun m front _ _ => BasicDefinition.sends_postTo modifiers hlists.to_ _)

/-- **What `manipulate` posts**: what the cancellation posts, and then one of four cases. -/
theorem appends_manipulate (h : Deferred P b) (hlists : b.definition.AllowsLists P H)
    (stop : P .stopKeyboardRepeat) {front : Entry}
    (hsimultaneous : b.PostsSimultaneous front →
      Allows P H b.definition.from_.simultaneousOptions.toAfterKeyUp)
    (rest : List Entry) (o : Output) (now : AbsoluteTime) :
    let r := b.manipulate front rest o now
    Appends P b o r.basic r.output := by
  have hobserve := appends_observe modifiers h hlists front o
  have hheld := b.sameHeld_observe front o
  have hcases := b.manipulates_manipulate front rest o now
  generalize b.observe front o = observed at hobserve hheld hcases
  obtain ⟨b₁, o₁⟩ := observed
  dsimp only at hobserve hheld hcases ⊢
  have hlists₁ : b₁.definition.AllowsLists P H := hobserve.definition ▸ hlists
  have hdeferred := hobserve.deferred
  generalize b.manipulate front rest o now = r at hcases
  cases hcases with
  | passed _ hsame => exact hobserve.trans (.of_objects hdeferred rfl rfl hsame.events)
  | @waits o' hsame =>
      let entry := o'.queue.delay (stopKeyboardRepeatEntry (b₁.delayInput front))
      refine hobserve.trans ⟨rfl, ⟨[entry], ?_, fun e he => ?_⟩, hdeferred⟩
      · exact congrArg (· ++ [entry]) hsame.events
      · rw [List.mem_singleton.mp he]
        exact stop
  | @captured front' fromEvents _ fromMandatoryModifiers o' _ hsame =>
      have hconditions : Appends P b₁ o₁ b₁ o' := .of_objects hdeferred rfl rfl hsame.events
      exact hobserve.trans (hconditions.trans
        (appends_capture modifiers hdeferred hlists₁ front' fromEvents fromMandatoryModifiers o'))
  | @released id hvalid htype htest hid =>
      have herase := appends_eraseFromEvent hdeferred id front.fromEvent o₁
      refine hobserve.trans (herase.trans (appends_finish (H := H) herase.deferred front id o₁
        fun m₁ front' hm₁ hm₁deferred => ?_))
      refine BasicDefinition.sends_postKeyUp modifiers hlists₁.toIfAlone hlists₁.toAfterKeyUp
        (fun hempty => ?_) hm₁deferred
      -- The press held the from event alone, and so it did before the cancellation.
      obtain ⟨m, hm, rfl⟩ := exists_of_getElem?_eraseFromEvent hm₁
      have hfrom := congrArg (·[id]?) hheld.fromEvents
      simp only [List.getElem?_map, hm, Option.map_some] at hfrom
      obtain ⟨m', hm', heq⟩ := Option.map_eq_some_iff.mp hfrom.symm
      rw [hheld.list, hheld.fromEventExists] at hid
      rw [hheld.definition] at htest ⊢
      exact hsimultaneous ⟨hvalid, htype, htest, id, m', hid, hm', by rw [heq]; exact hempty⟩

end Modifiers

/-! ### Steps and runs -/

/-- The entries that the manipulator posts in a step. -/
def posts (s : State) : Input → List Entry
  | .outside _ => []
  | i => (step s i).output.queue.events.drop s.output.queue.events.length

/-- One step with what it posts. -/
def stepPosts (s : State) (i : Input) : State × List Entry := (step s i, posts s i)

/-- What a new manipulator posts in a run. -/
def postsOfRun (definition : BasicDefinition) (output : Output) (is : List Input) : List Entry :=
  Machine.outputs stepPosts (.initial definition output) is

/-- The step posts `simultaneous_options.to_after_key_up`, a list with `Q`. -/
def Input.PostsSimultaneous (Q : List ToEventDefinition → Prop) (s : State) : Input → Prop
  | .manipulate front _ _ =>
    s.basic.PostsSimultaneous front ∧ Q s.basic.definition.from_.simultaneousOptions.toAfterKeyUp
  | _ => False

/-- **What a step posts**: entries with `P`, now and at the key_up. -/
theorem appends_step (modifiers : AllowsModifiers P) (stop : P .stopKeyboardRepeat) {s : State}
    (h : Deferred P s.basic) (hlists : s.basic.definition.AllowsLists P H) {i : Input}
    (hsimultaneous : ¬i.PostsSimultaneous (¬Allows P H ·) s) (houtside : ∀ o, i ≠ .outside o) :
    Appends P s.basic s.output (step s i).basic (step s i).output := by
  cases i with
  | manipulate front rest now =>
      refine appends_manipulate modifiers h hlists stop (fun hposts => ?_) rest s.output now
      exact not_not.mp fun hnot => hsimultaneous ⟨hposts, hnot⟩
  | deviceUngrabbed deviceId => exact appends_handleDeviceUngrabbedEvent h deviceId s.output
  | pointingDeviceEventFromEventTap front =>
      exact appends_unsetAloneIfNeeded h front.originalEvent front.eventType s.output
  | setValidity validity => exact .of_objects h rfl rfl rfl
  | fireHeldDown id => exact appends_fireHeldDown modifiers h hlists id s.output
  | fireDelayedAction id => exact appends_fireDelayedAction modifiers h hlists id s.output
  | outside o => exact absurd rfl (houtside o)

/-- **What a run posts.** -/
theorem event_of_mem_postsOfRun (modifiers : AllowsModifiers P) (stop : P .stopKeyboardRepeat)
    {definition : BasicDefinition} (hlists : definition.AllowsLists P H) (output : Output)
    {is : List Input}
    (hsimultaneous : Machine.Steps step (fun s i => ¬i.PostsSimultaneous (¬Allows P H ·) s)
      (.initial definition output) is) :
    ∀ e ∈ postsOfRun definition output is, P e.event := by
  let inv (s : State) : Prop := Deferred P s.basic ∧ s.basic.definition.AllowsLists P H
  have hinit : inv (.initial definition output) := ⟨by simp [Deferred, State.initial], hlists⟩
  have hsteps : Machine.Steps (fun s i => (stepPosts s i).1)
      (fun s i => ¬i.PostsSimultaneous (¬Allows P H ·) s) (.initial definition output) is :=
    hsimultaneous
  refine Machine.steps_outputs (fun s i hstep hinv => ?_) hinit hsteps
  obtain ⟨hdeferred, hlists⟩ := hinv
  by_cases houtside : ∃ o, i = .outside o
  · obtain ⟨o, rfl⟩ := houtside
    exact ⟨⟨hdeferred, hlists⟩, by simp [stepPosts, posts]⟩
  · have houtside : ∀ o, i ≠ .outside o := fun o hi => houtside ⟨o, hi⟩
    have happends := appends_step modifiers stop hdeferred hlists hstep houtside
    obtain ⟨new, hnew, hallowed⟩ := happends.appended
    have hposts : posts s i = new := by
      have hdrop : (step s i).output.queue.events.drop s.output.queue.events.length = new := by
        rw [hnew, List.drop_left]
      cases i with
      | outside o => exact absurd rfl (houtside o)
      | _ => exact hdrop
    refine ⟨⟨happends.deferred, happends.definition ▸ hlists⟩, ?_⟩
    show ∀ e ∈ posts s i, P e.event
    rwa [hposts]

end Basic

end Karabiner
