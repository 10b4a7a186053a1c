import Karabiner.Library.History
import Karabiner.Library.Machine
import Karabiner.Types
import Mathlib.Data.Finset.Max
import Mathlib.Data.Prod.Lex

/-!
# Probable stuck events

`device_grabber_details/probable_stuck_events_manager.hpp`: which switches of a device may have
been held since before it was seized.  A `key_up` that arrives before any `key_down` gives such a
switch away, and the device is then left ungrabbed until the switch is pressed and released again.

The manager is cleared whenever the device is seized.  Between two clears it is a machine whose
inputs are the calls of `update`; every one of its sets is a function of what has happened to the
one switch, except that an observed `key_down` may also purge the other switches of its page.

* `stepAt` — what one call does to the sets at one switch.
* `describes_run` — three of the sets as a function of the history.
* `describesSeized_run` — the stuck switches of a seized device.
* `run_characterised` — **which switches are stuck and which are exceptional**, in every run.
-/

namespace Karabiner

/-- `device_state`. -/
inductive DeviceState
  | seized
  | observed
deriving DecidableEq, Repr

/-- `momentary_switch_event::interrupts_key_repeat`. -/
def MomentarySwitchEvent.interruptsKeyRepeat (e : MomentarySwitchEvent) : Bool :=
  !(!e.valid || e.modifierFlag || e.capsLock || e.pointingButton ||
    e.usagePair.usagePage = UsagePage.genericDesktop)

/-- `probable_stuck_events_manager`. -/
structure ProbableStuckEventsManager where
  probableStuckEvents : Finset MomentarySwitchEvent := ∅
  keyDownArrivedEvents : Finset MomentarySwitchEvent := ∅
  keyUpEvents : Finset MomentarySwitchEvent := ∅
  /-- The switches that send `key_up` again and again and never a `key_down`. -/
  exceptionalKeyUpEvents : Finset MomentarySwitchEvent := ∅

namespace ProbableStuckEventsManager

/-- `find_probable_stuck_event`: the first event in the order of usage pages and usages. -/
def findProbableStuckEvent (s : ProbableStuckEventsManager) : Option MomentarySwitchEvent :=
  let keys := s.probableStuckEvents.image fun e =>
    toLex (e.usagePair.usagePage, e.usagePair.usage)
  if h : keys.Nonempty then
    let least := ofLex (keys.min' h)
    some ⟨⟨least.1, least.2⟩⟩
  else none

/-- `erase_except_modifier_flags`. -/
def eraseExceptModifierFlags (s : ProbableStuckEventsManager) (usagePage : ℤ) :
    ProbableStuckEventsManager :=
  { s with
    probableStuckEvents := s.probableStuckEvents.filter fun e =>
      ¬ (e.usagePair.usagePage = usagePage ∧ ¬ e.modifierFlag) }

/-- The `key_down` case of `update`. -/
def keyDown (s : ProbableStuckEventsManager) (event : MomentarySwitchEvent)
    (state : DeviceState) : ProbableStuckEventsManager :=
  let s := { s with
    keyDownArrivedEvents := insert event s.keyDownArrivedEvents
    keyUpEvents := s.keyUpEvents.erase event
    exceptionalKeyUpEvents := s.exceptionalKeyUpEvents.erase event }
  if state = .observed then
    let s :=
      if event.interruptsKeyRepeat then s.eraseExceptModifierFlags event.usagePair.usagePage else s
    { s with probableStuckEvents := insert event s.probableStuckEvents }
  else s

/-- The `key_up` case of `update`. -/
def keyUp (s : ProbableStuckEventsManager) (event : MomentarySwitchEvent) :
    ProbableStuckEventsManager :=
  let s' :=
    if event ∈ s.keyUpEvents then
      { s with
        exceptionalKeyUpEvents := insert event s.exceptionalKeyUpEvents
        probableStuckEvents := s.probableStuckEvents.erase event }
    else if event ∉ s.keyDownArrivedEvents ∧ event ∉ s.exceptionalKeyUpEvents then
      -- The key was held down before the device was grabbed.
      { s with probableStuckEvents := insert event s.probableStuckEvents }
    else { s with probableStuckEvents := s.probableStuckEvents.erase event }
  { s' with keyUpEvents := insert event s'.keyUpEvents }

/-- `update`, with whether the event to wait for has changed. -/
def update (s : ProbableStuckEventsManager) (event : MomentarySwitchEvent) (type : EventType)
    (state : DeviceState) : ProbableStuckEventsManager × Bool :=
  if event.valid then
    let s' :=
      match type with
      | .keyDown => s.keyDown event state
      | .keyUp => s.keyUp event
      | .single => s
    (s', s'.findProbableStuckEvent ≠ s.findProbableStuckEvent)
  else (s, false)

/-- `clear`.  What is exceptional stays so. -/
def clear (s : ProbableStuckEventsManager) : ProbableStuckEventsManager :=
  { s with probableStuckEvents := ∅, keyDownArrivedEvents := ∅, keyUpEvents := ∅ }

/-- A call. -/
inductive Input
  | update (event : MomentarySwitchEvent) (type : EventType) (state : DeviceState)
  | clear
deriving DecidableEq

/-- One call. -/
def step (s : ProbableStuckEventsManager) : Input → ProbableStuckEventsManager
  | .update event type state => (s.update event type state).1
  | .clear => s.clear

/-- The state a sequence of calls leads to. -/
abbrev run (s : ProbableStuckEventsManager) (is : List Input) : ProbableStuckEventsManager :=
  Machine.run step s is

/-- There is an event to wait for unless no event is stuck. -/
theorem findProbableStuckEvent_eq_none (s : ProbableStuckEventsManager) :
    s.findProbableStuckEvent = none ↔ s.probableStuckEvents = ∅ := by
  simp [findProbableStuckEvent, Finset.not_nonempty_iff_eq_empty]

/-! ### One call -/

namespace Input

/-- The `key_down` or `key_up` that a call reports of `e`. -/
def keyUpdate? (e : MomentarySwitchEvent) : Input → Option EventType
  | .update event type _ => if event = e ∧ type ≠ .single then some type else none
  | .clear => none

/-- The call reports a `key_down` of `e`. -/
abbrev IsKeyDown (e : MomentarySwitchEvent) (i : Input) : Prop := i.keyUpdate? e = some .keyDown

/-- The call reports a `key_up` of `e`. -/
abbrev IsKeyUp (e : MomentarySwitchEvent) (i : Input) : Prop := i.keyUpdate? e = some .keyUp

/-- The call comes from a seized device. -/
def IsSeized : Input → Prop
  | .update _ _ state => state = .seized
  | .clear => False

end Input

variable {s : ProbableStuckEventsManager} {e : MomentarySwitchEvent}

@[simp] theorem keyDownArrivedEvents_keyDown (event : MomentarySwitchEvent) (state : DeviceState) :
    (s.keyDown event state).keyDownArrivedEvents = insert event s.keyDownArrivedEvents := by
  unfold keyDown
  split_ifs <;> rfl

@[simp] theorem keyUpEvents_keyDown (event : MomentarySwitchEvent) (state : DeviceState) :
    (s.keyDown event state).keyUpEvents = s.keyUpEvents.erase event := by
  unfold keyDown
  split_ifs <;> rfl

@[simp] theorem exceptionalKeyUpEvents_keyDown (event : MomentarySwitchEvent)
    (state : DeviceState) :
    (s.keyDown event state).exceptionalKeyUpEvents = s.exceptionalKeyUpEvents.erase event := by
  unfold keyDown
  split_ifs <;> rfl

@[simp] theorem keyDownArrivedEvents_keyUp (event : MomentarySwitchEvent) :
    (s.keyUp event).keyDownArrivedEvents = s.keyDownArrivedEvents := by
  unfold keyUp
  dsimp only
  split_ifs <;> rfl

@[simp] theorem keyUpEvents_keyUp (event : MomentarySwitchEvent) :
    (s.keyUp event).keyUpEvents = insert event s.keyUpEvents := by
  unfold keyUp
  dsimp only
  split_ifs <;> rfl

@[simp] theorem exceptionalKeyUpEvents_keyUp (event : MomentarySwitchEvent) :
    (s.keyUp event).exceptionalKeyUpEvents =
      if event ∈ s.keyUpEvents then insert event s.exceptionalKeyUpEvents
      else s.exceptionalKeyUpEvents := by
  unfold keyUp
  dsimp only
  split_ifs <;> rfl

/-- Clearing keeps the exceptional events. -/
theorem exceptionalKeyUpEvents_clear (s : ProbableStuckEventsManager) :
    s.clear.exceptionalKeyUpEvents = s.exceptionalKeyUpEvents := rfl

/-- What a `key_up` does to the stuck events. -/
theorem mem_probableStuckEvents_keyUp (event : MomentarySwitchEvent) :
    e ∈ (s.keyUp event).probableStuckEvents ↔
      if e = event then
        event ∉ s.keyUpEvents ∧ event ∉ s.keyDownArrivedEvents ∧ event ∉ s.exceptionalKeyUpEvents
      else e ∈ s.probableStuckEvents := by
  unfold keyUp
  dsimp only
  split_ifs with hup harrived heq heq heq <;> simp_all

/-- What a `key_down` does to the stuck events. -/
theorem mem_probableStuckEvents_keyDown (event : MomentarySwitchEvent) (state : DeviceState) :
    e ∈ (s.keyDown event state).probableStuckEvents ↔
      match state with
      | .seized => e ∈ s.probableStuckEvents
      | .observed => e = event ∨ e ∈ s.probableStuckEvents ∧
          ¬ (event.interruptsKeyRepeat ∧ e.usagePair.usagePage = event.usagePair.usagePage ∧
            ¬ e.modifierFlag) := by
  cases state with
  | seized => rfl
  | observed =>
      cases hevent : event.interruptsKeyRepeat <;>
        simp [keyDown, hevent, eraseExceptModifierFlags]

/-- An update of a valid event is one of its key_down or key_up. -/
theorem step_update (event : MomentarySwitchEvent) (type : EventType) (state : DeviceState) :
    step s (.update event type state) =
      if event.valid then
        match type with
        | .keyDown => s.keyDown event state
        | .keyUp => s.keyUp event
        | .single => s
      else s := by
  simp only [step, update]
  split_ifs <;> rfl

/-- The three other sets are left alone at `e`, and `e` does not become stuck. -/
structure IsFrame (e : MomentarySwitchEvent) (s s' : ProbableStuckEventsManager) : Prop where
  keyDownArrivedEvents : e ∈ s'.keyDownArrivedEvents ↔ e ∈ s.keyDownArrivedEvents
  keyUpEvents : e ∈ s'.keyUpEvents ↔ e ∈ s.keyUpEvents
  exceptionalKeyUpEvents : e ∈ s'.exceptionalKeyUpEvents ↔ e ∈ s.exceptionalKeyUpEvents
  probableStuckEvents : e ∈ s'.probableStuckEvents → e ∈ s.probableStuckEvents

/-- A key_down of another event changes nothing about this one. -/
theorem isFrame_keyDown {event : MomentarySwitchEvent} (hne : e ≠ event) (state : DeviceState) :
    IsFrame e s (s.keyDown event state) := by
  refine ⟨by simp [hne], by simp [hne], by simp [hne], fun h => ?_⟩
  rw [mem_probableStuckEvents_keyDown] at h
  cases state with
  | seized => exact h
  | observed => exact (h.resolve_left hne).1

theorem isFrame_keyUp {event : MomentarySwitchEvent} (hne : e ≠ event) :
    IsFrame e s (s.keyUp event) := by
  refine ⟨by simp, by simp [hne], ?_, fun h => ?_⟩
  · rw [exceptionalKeyUpEvents_keyUp]
    split_ifs <;> simp [hne]
  · rwa [mem_probableStuckEvents_keyUp, if_neg hne] at h

/-- What a call does to the sets at a valid `e`. -/
inductive StepAt (e : MomentarySwitchEvent) (s : ProbableStuckEventsManager) :
    Input → ProbableStuckEventsManager → Prop
  | keyDown (state : DeviceState) : StepAt e s (.update e .keyDown state) (s.keyDown e state)
  | keyUp (state : DeviceState) : StepAt e s (.update e .keyUp state) (s.keyUp e)
  | clear : StepAt e s .clear s.clear
  | other {i : Input} {s' : ProbableStuckEventsManager} (notClear : i ≠ .clear)
      (unreported : i.keyUpdate? e = none) (frame : IsFrame e s s')
      (seized : i.IsSeized → (e ∈ s'.probableStuckEvents ↔ e ∈ s.probableStuckEvents)) :
      StepAt e s i s'

/-- **What one call does** to the sets at a valid event. -/
theorem stepAt (valid : e.valid) (s : ProbableStuckEventsManager) (i : Input) :
    StepAt e s i (step s i) := by
  cases i with
  | clear => exact .clear
  | update event type state =>
      rw [step_update]
      by_cases hevent : event = e
      · subst hevent
        rw [if_pos valid]
        cases type with
        | keyDown => exact .keyDown state
        | keyUp => exact .keyUp state
        | single =>
            exact .other (by simp) (by simp [Input.keyUpdate?]) ⟨.rfl, .rfl, .rfl, id⟩ fun _ => .rfl
      · have hne : e ≠ event := Ne.symm hevent
        have hnone : (Input.update event type state).keyUpdate? e = none := by
          simp [Input.keyUpdate?, hevent]
        split_ifs with hvalid
        · cases type with
          | keyDown =>
              refine .other (by simp) hnone (isFrame_keyDown hne state) fun hseized => ?_
              obtain rfl : state = .seized := hseized
              exact mem_probableStuckEvents_keyDown event .seized
          | keyUp =>
              refine .other (by simp) hnone (isFrame_keyUp hne) fun _ => ?_
              rw [mem_probableStuckEvents_keyUp, if_neg hne]
          | single => exact .other (by simp) hnone ⟨.rfl, .rfl, .rfl, id⟩ fun _ => .rfl
        · exact .other (by simp) hnone ⟨.rfl, .rfl, .rfl, id⟩ fun _ => .rfl

/-! ### Runs -/

/-- A `key_down` of `e` has arrived since the last `clear`. -/
def KeyDownSinceClear (e : MomentarySwitchEvent) (is : List Input) : Prop :=
  History.Since (fun _ i => i.IsKeyDown e) (fun i => i ≠ .clear) is

/-- The last `key_down` or `key_up` of `e` since the last `clear` was a `key_up`. -/
def KeyUpSinceClear (e : MomentarySwitchEvent) (is : List Input) : Prop :=
  History.Since (fun _ i => i.IsKeyUp e) (fun i => i ≠ .clear ∧ ¬ i.IsKeyDown e) is

/-- Since the last `key_down` of `e` there have been two `key_up`s of `e` with no `clear` between
them. -/
def TwoKeyUps (e : MomentarySwitchEvent) (is : List Input) : Prop :=
  ∃ before first between second after,
    is = before ++ first :: between ++ second :: after ∧
      first.IsKeyUp e ∧ second.IsKeyUp e ∧ .clear ∉ between ∧
      ∀ i ∈ between ++ after, ¬ i.IsKeyDown e

/-- There have been two key_ups if since one of them, which was not the first, no key_down came. -/
theorem twoKeyUps_iff_since (e : MomentarySwitchEvent) (is : List Input) :
    TwoKeyUps e is ↔
      History.Since (fun before i => i.IsKeyUp e ∧ KeyUpSinceClear e before)
        (fun i => ¬ i.IsKeyDown e) is := by
  constructor
  · rintro ⟨before, first, between, second, after, rfl, hfirst, hsecond, hclear, hdown⟩
    refine ⟨before ++ first :: between, second, after, rfl, ⟨hsecond, ?_⟩, fun i hi =>
      hdown i (List.mem_append_right _ hi)⟩
    exact ⟨before, first, between, rfl, hfirst, fun i hi =>
      ⟨fun h => hclear (h ▸ hi), hdown i (List.mem_append_left _ hi)⟩⟩
  · rintro ⟨_, second, after, rfl, ⟨hsecond, before, first, between, rfl, hfirst, hbetween⟩, hafter⟩
    refine ⟨before, first, between, second, after, rfl, hfirst, hsecond, fun h =>
      (hbetween _ h).1 rfl, fun i hi => ?_⟩
    rcases List.mem_append.mp hi with hi | hi
    · exact (hbetween i hi).2
    · exact hafter i hi

/-- What the sets say at `e` after the history `is`. -/
structure Describes (e : MomentarySwitchEvent) (is : List Input)
    (s : ProbableStuckEventsManager) : Prop where
  keyDownArrivedEvents : e ∈ s.keyDownArrivedEvents ↔ KeyDownSinceClear e is
  keyUpEvents : e ∈ s.keyUpEvents ↔ KeyUpSinceClear e is
  exceptionalKeyUpEvents : e ∈ s.exceptionalKeyUpEvents ↔ TwoKeyUps e is

/-- A call keeps the description. -/
theorem Describes.step (valid : e.valid) {is : List Input} (h : Describes e is s) (i : Input) :
    Describes e (is ++ [i]) (step s i) := by
  obtain ⟨hdown, hup, htwo⟩ := h
  have hstep := stepAt valid s i
  generalize ProbableStuckEventsManager.step s i = s' at hstep
  have hdown' : KeyDownSinceClear e (is ++ [i]) ↔
      i.IsKeyDown e ∨ e ∈ s.keyDownArrivedEvents ∧ i ≠ .clear := by
    rw [KeyDownSinceClear, History.since_concat, hdown, KeyDownSinceClear]
  have hup' : KeyUpSinceClear e (is ++ [i]) ↔
      i.IsKeyUp e ∨ e ∈ s.keyUpEvents ∧ i ≠ .clear ∧ ¬ i.IsKeyDown e := by
    rw [KeyUpSinceClear, History.since_concat, hup, KeyUpSinceClear]
  have htwo' : TwoKeyUps e (is ++ [i]) ↔
      i.IsKeyUp e ∧ e ∈ s.keyUpEvents ∨ e ∈ s.exceptionalKeyUpEvents ∧ ¬ i.IsKeyDown e := by
    rw [twoKeyUps_iff_since, History.since_concat, htwo, twoKeyUps_iff_since, hup]
  constructor
  · rw [hdown']
    cases hstep with
    | keyDown state => simp [Input.IsKeyDown, Input.keyUpdate?]
    | keyUp state => simp [Input.IsKeyDown, Input.keyUpdate?]
    | clear => simp [Input.keyUpdate?, clear]
    | other notClear unreported frame _ =>
        simp [unreported, notClear, frame.keyDownArrivedEvents]
  · rw [hup']
    cases hstep with
    | keyDown state => simp [Input.IsKeyDown, Input.IsKeyUp, Input.keyUpdate?]
    | keyUp state => simp [Input.IsKeyDown, Input.IsKeyUp, Input.keyUpdate?]
    | clear => simp [Input.keyUpdate?, clear]
    | other notClear unreported frame _ => simp [unreported, notClear, frame.keyUpEvents]
  · rw [htwo']
    cases hstep with
    | keyDown state => simp [Input.IsKeyDown, Input.IsKeyUp, Input.keyUpdate?]
    | keyUp state =>
        rw [exceptionalKeyUpEvents_keyUp]
        split_ifs with h <;> simp [Input.IsKeyDown, Input.IsKeyUp, Input.keyUpdate?, h]
    | clear => simp [Input.keyUpdate?, clear]
    | other notClear unreported frame _ => simp [unreported, frame.exceptionalKeyUpEvents]

/-- **The sets describe the history.** -/
theorem describes_run (valid : e.valid) (is : List Input) : Describes e is (run {} is) := by
  induction is using List.reverseRecOn with
  | nil =>
      exact ⟨by simp [KeyDownSinceClear], by simp [KeyUpSinceClear], by simp [twoKeyUps_iff_since]⟩
  | append_singleton is i ih =>
      rw [run, Machine.run_concat]
      exact ih.step valid i

/-! ### The stuck events of a seized device -/

/-- The `key_down`s and `key_up`s of `e`, in the order they were reported. -/
def keyUpdates (e : MomentarySwitchEvent) (is : List Input) : List EventType :=
  is.filterMap (Input.keyUpdate? e)

/-- One `key_up`, then any number of `key_down`s. -/
def IsHeldSinceBefore (updates : List EventType) : Prop :=
  ∃ n, updates = .keyUp :: List.replicate n .keyDown

/-- A key_down at the end says nothing about what came before. -/
theorem isHeldSinceBefore_append_keyDown (updates : List EventType) :
    IsHeldSinceBefore (updates ++ [.keyDown]) ↔ IsHeldSinceBefore updates := by
  constructor
  · rintro ⟨n, h⟩
    cases n with
    | zero =>
        cases updates with
        | nil => simp at h
        | cons t ts => simp at h
    | succ n =>
        rw [List.replicate_succ', ← List.cons_append] at h
        exact ⟨n, (List.append_inj' h rfl).1⟩
  · rintro ⟨n, rfl⟩
    exact ⟨n + 1, by simp [List.replicate_succ']⟩

/-- With a key_up at the end, the key is held since before if that is the first update. -/
theorem isHeldSinceBefore_append_keyUp (updates : List EventType) :
    IsHeldSinceBefore (updates ++ [.keyUp]) ↔ updates = [] := by
  constructor
  · rintro ⟨n, h⟩
    cases n with
    | zero => simpa using h
    | succ n =>
        rw [List.replicate_succ', ← List.cons_append] at h
        exact absurd (List.append_inj' h rfl).2 (by simp)
  · rintro rfl
    exact ⟨0, rfl⟩

/-- What the sets of a seized device say at `e`, in terms of the `updates` of `e` since the last
`clear` and of whether `e` was exceptional then. -/
structure DescribesSeized (e : MomentarySwitchEvent) (exceptional : Prop)
    (updates : List EventType) (s : ProbableStuckEventsManager) : Prop where
  keyDownArrivedEvents : e ∈ s.keyDownArrivedEvents ↔ .keyDown ∈ updates
  keyUpEvents : e ∈ s.keyUpEvents ↔ updates.getLast? = some .keyUp
  exceptionalKeyUpEvents : updates = [] → (e ∈ s.exceptionalKeyUpEvents ↔ exceptional)
  probableStuckEvents : e ∈ s.probableStuckEvents ↔ IsHeldSinceBefore updates ∧ ¬ exceptional
  reported : ∀ t ∈ updates, t = .keyDown ∨ t = .keyUp

/-- Without a `key_down`, and with no `key_up` last, there was no update at all. -/
theorem DescribesSeized.eq_nil {exceptional : Prop} {updates : List EventType}
    (h : DescribesSeized e exceptional updates s) (hup : e ∉ s.keyUpEvents)
    (hdown : e ∉ s.keyDownArrivedEvents) : updates = [] := by
  cases updates using List.reverseRecOn with
  | nil => rfl
  | append_singleton ts t =>
      rcases h.reported t (by simp) with rfl | rfl
      · exact absurd (h.keyDownArrivedEvents.mpr (by simp)) hdown
      · exact absurd (h.keyUpEvents.mpr (by simp)) hup

/-- Every input keeps the description for a seized device. -/
theorem DescribesSeized.step (valid : e.valid) {exceptional : Prop} {updates : List EventType}
    (h : DescribesSeized e exceptional updates s) {i : Input} (seized : i.IsSeized) :
    DescribesSeized e exceptional (updates ++ (i.keyUpdate? e).toList)
      (ProbableStuckEventsManager.step s i) := by
  have hstep := stepAt valid s i
  generalize ProbableStuckEventsManager.step s i = s' at hstep
  cases hstep with
  | keyDown state =>
      obtain rfl : state = .seized := seized
      have hupdate : (Input.update e .keyDown .seized).keyUpdate? e = some .keyDown := by
        simp [Input.keyUpdate?]
      rw [hupdate, Option.toList_some]
      refine ⟨by simp, by simp, by simp, ?_, ?_⟩
      · rw [mem_probableStuckEvents_keyDown, isHeldSinceBefore_append_keyDown]
        exact h.probableStuckEvents
      · simpa [or_imp, forall_and] using h.reported
  | keyUp state =>
      have hupdate : (Input.update e .keyUp state).keyUpdate? e = some .keyUp := by
        simp [Input.keyUpdate?]
      rw [hupdate, Option.toList_some]
      refine ⟨by simpa using h.keyDownArrivedEvents, by simp, by simp, ?_, ?_⟩
      · rw [mem_probableStuckEvents_keyUp, if_pos rfl, isHeldSinceBefore_append_keyUp]
        constructor
        · rintro ⟨hup, hdown, hexceptional⟩
          have hnil := h.eq_nil hup hdown
          exact ⟨hnil, fun hx => hexceptional ((h.exceptionalKeyUpEvents hnil).mpr hx)⟩
        · rintro ⟨rfl, hexceptional⟩
          refine ⟨fun hup => ?_, fun hdown => ?_, fun hx =>
            hexceptional ((h.exceptionalKeyUpEvents rfl).mp hx)⟩
          · simpa using h.keyUpEvents.mp hup
          · simpa using h.keyDownArrivedEvents.mp hdown
      · simpa [or_imp, forall_and] using h.reported
  | clear => exact seized.elim
  | other notClear unreported frame hstuck =>
      rw [unreported, Option.toList_none, List.append_nil]
      exact ⟨frame.keyDownArrivedEvents.trans h.keyDownArrivedEvents,
        frame.keyUpEvents.trans h.keyUpEvents,
        fun hnil => frame.exceptionalKeyUpEvents.trans (h.exceptionalKeyUpEvents hnil),
        (hstuck seized).trans h.probableStuckEvents, h.reported⟩

theorem describesSeized_run (valid : e.valid) (s : ProbableStuckEventsManager) (is : List Input)
    (seized : ∀ i ∈ is, i.IsSeized) :
    DescribesSeized e (e ∈ s.exceptionalKeyUpEvents) (keyUpdates e is) (run s.clear is) := by
  induction is using List.reverseRecOn with
  | nil =>
      refine ⟨by simp [clear, keyUpdates], by simp [clear, keyUpdates], fun _ => .rfl, ?_,
        by simp [keyUpdates]⟩
      simp [clear, keyUpdates, IsHeldSinceBefore]
  | append_singleton is i ih =>
      have hi : i.IsSeized := seized i (by simp)
      rw [run, Machine.run_concat, keyUpdates, List.filterMap_append]
      have hlast : [i].filterMap (Input.keyUpdate? e) = (i.keyUpdate? e).toList := by
        cases h : i.keyUpdate? e <;> simp [h]
      rw [hlast]
      exact (ih fun j hj => seized j (by simp [hj])).step valid hi

/-! ### Whole runs -/

/-- Only an update of `e` makes `e` stuck. -/
theorem eq_update_of_mem_step {i : Input} (before : e ∉ s.probableStuckEvents)
    (after : e ∈ (step s i).probableStuckEvents) : ∃ type state, i = .update e type state := by
  cases i with
  | clear => simp [step, clear] at after
  | update event type state =>
      by_cases hevent : event = e
      · exact ⟨type, state, by rw [hevent]⟩
      · have hne : e ≠ event := Ne.symm hevent
        rw [step_update] at after
        split_ifs at after
        · cases type with
          | keyDown => exact absurd ((isFrame_keyDown hne state).probableStuckEvents after) before
          | keyUp => exact absurd ((isFrame_keyUp hne).probableStuckEvents after) before
          | single => exact absurd after before
        · exact absurd after before

/-- An interrupting `key_down` of an observed device purges its page of what is no modifier. -/
theorem notMem_step_keyDown_observed {x : MomentarySwitchEvent}
    (interrupts : e.interruptsKeyRepeat) (hx : x ∈ s.probableStuckEvents) :
    x ∉ (step s (.update e .keyDown .observed)).probableStuckEvents ↔
      x ≠ e ∧ x.usagePair.usagePage = e.usagePair.usagePage ∧ ¬ x.modifierFlag := by
  have valid : e.valid := by
    by_contra hvalid
    simp [MomentarySwitchEvent.interruptsKeyRepeat, hvalid] at interrupts
  rw [step_update, if_pos valid, mem_probableStuckEvents_keyDown]
  simp [interrupts, hx]

/-- **Which switches are stuck and which are exceptional.**  On a device that has been seized since
the last `clear`, a switch is stuck if all it has reported is one `key_up` and then any number of
`key_down`s, unless it was exceptional at the `clear`.  It is exceptional if since its last
`key_down` it has reported two `key_up`s with no `clear` between them.  When the device is observed
in between, a switch still becomes stuck only by an update of its own, a `key_up` after a `key_down`
releases it, and an interrupting `key_down` releases exactly the other switches of its page that
are no modifiers. -/
theorem run_characterised (is : List Input) :
    (∀ (e : MomentarySwitchEvent) (after : List Input), e.valid → (∀ i ∈ after, i.IsSeized) →
      (e ∈ (run (run {} is).clear after).probableStuckEvents ↔
        IsHeldSinceBefore (keyUpdates e after) ∧
          e ∉ (run {} is).clear.exceptionalKeyUpEvents)) ∧
    (∀ e : MomentarySwitchEvent, e.valid →
      (e ∈ (run {} is).exceptionalKeyUpEvents ↔ TwoKeyUps e is)) ∧
    (∀ (e : MomentarySwitchEvent) (i : Input), e ∉ (run {} is).probableStuckEvents →
      e ∈ (run {} (is ++ [i])).probableStuckEvents → ∃ type state, i = .update e type state) ∧
    (∀ (e : MomentarySwitchEvent) (state : DeviceState), e.valid → KeyDownSinceClear e is →
      e ∉ (run {} (is ++ [.update e .keyUp state])).probableStuckEvents) ∧
    (∀ e x : MomentarySwitchEvent, e.interruptsKeyRepeat → x ∈ (run {} is).probableStuckEvents →
      (x ∉ (run {} (is ++ [.update e .keyDown .observed])).probableStuckEvents ↔
        x ≠ e ∧ x.usagePair.usagePage = e.usagePair.usagePage ∧ ¬ x.modifierFlag)) := by
  have hrun (i : Input) : run {} (is ++ [i]) = step (run {} is) i := Machine.run_concat ..
  refine ⟨fun e after valid seized => ?_, fun e valid => ?_, fun e i hbefore hafter => ?_,
    fun e state valid hdown => ?_, fun e x interrupts hx => ?_⟩
  · exact (describesSeized_run valid (run {} is) after seized).probableStuckEvents
  · exact (describes_run valid is).exceptionalKeyUpEvents
  · rw [hrun] at hafter
    exact eq_update_of_mem_step hbefore hafter
  · have harrived := (describes_run valid is).keyDownArrivedEvents.mpr hdown
    intro h
    rw [hrun, step_update, if_pos valid, mem_probableStuckEvents_keyUp, if_pos rfl] at h
    exact h.2.1 harrived
  · rw [hrun]
    exact notMem_step_keyDown_observed interrupts hx

/-- `b` repeats its `key_up` and becomes exceptional; then the device is seized with `a` held. -/
theorem run_characterised_twoKeys :
    let a : MomentarySwitchEvent := ⟨⟨UsagePage.keyboardOrKeypad, 0x04⟩⟩
    let b : MomentarySwitchEvent := ⟨⟨UsagePage.keyboardOrKeypad, 0x05⟩⟩
    let is : List Input := [.update a .keyUp .observed, .update b .keyDown .observed,
      .update b .keyUp .observed, .update b .keyUp .observed, .update a .keyDown .observed]
    let after : List Input :=
      [.update a .keyUp .seized, .update b .keyUp .seized, .update a .keyDown .seized]
    a ∈ (run (run {} is).clear after).probableStuckEvents ∧
      b ∉ (run (run {} is).clear after).probableStuckEvents ∧
      b ∈ (run {} is).exceptionalKeyUpEvents ∧
      a ∉ (run {} (is ++ [.update a .keyUp .observed])).probableStuckEvents ∧
      a ∈ (run {} is).probableStuckEvents ∧
      a ∉ (run {} (is ++ [.update b .keyDown .observed])).probableStuckEvents := by
  intro a b is after
  obtain ⟨hstuck, hexceptional, -, hreleased, hpurged⟩ := run_characterised is
  have hseized : ∀ i ∈ after, i.IsSeized := by simp [after, Input.IsSeized]
  have hb : b ∈ (run {} is).exceptionalKeyUpEvents :=
    (hexceptional b (by decide)).mpr
      ⟨is.take 2, .update b .keyUp .observed, [], .update b .keyUp .observed,
        [.update a .keyDown .observed], by decide, by decide, by decide, by simp, by decide⟩
  have ha : a ∈ (run {} is).probableStuckEvents := by decide
  have hdown : KeyDownSinceClear a is :=
    ⟨is.take 4, .update a .keyDown .observed, [], by decide, by decide, by simp⟩
  refine ⟨?_, ?_, hb, ?_, ha, ?_⟩
  · rw [hstuck a after (by decide) hseized]
    exact ⟨⟨1, by decide⟩, by decide⟩
  · rw [hstuck b after (by decide) hseized, exceptionalKeyUpEvents_clear]
    exact fun h => h.2 hb
  · exact hreleased a .observed (by decide) hdown
  · rw [hpurged b a (by decide) ha]
    decide

end ProbableStuckEventsManager

end Karabiner
