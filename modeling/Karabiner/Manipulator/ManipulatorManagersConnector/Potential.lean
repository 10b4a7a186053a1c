import Karabiner.EventQueue.SortEvents
import Karabiner.Manipulator.ManipulatorManager.Batching
import Karabiner.Manipulator.ManipulatorManagersConnector

/-!
# The potential of a connection

How much progress a connection can still make: for every entry of its input queue, how many
manipulators may still raise the input delay of the entry, together with the pairs of entries in the
wrong order and the delayed actions that a key_down may still cancel.

A step that processes an entry lowers the potential.  A step that only waits posts a
`stop_keyboard_repeat` entry; these entries weigh nothing, since no manipulator stops them.

* `Basic.drain_manipulate`, `Slot.manipulateAll_waits` — what a manipulator and the loop over them
  do.
* `Connection.manipulate_drain` — **one step lowers the potential**, or it changes nothing but for
  entries without weight.
-/

namespace Karabiner

/-- An entry without what processing may change: its validity and its input delay. -/
def Entry.content (e : Entry) : Entry :=
  { e with validity := .valid, eventTimeStamp.inputDelayDuration := 0 }

/-- An entry that stops the keyboard repeat. -/
def Entry.isStop (e : Entry) : Bool := e.event = .stopKeyboardRepeat && e.eventType = .single

/-- Both the event and its type say so. -/
theorem Entry.isStop_iff (e : Entry) :
    e.isStop = true ↔ e.event = .stopKeyboardRepeat ∧ e.eventType = .single := by
  simp [isStop]

namespace Basic

variable [Exprtk] [SystemClock] [MachTimebase]

/-! ### One manipulator -/

omit [Exprtk] [SystemClock] [MachTimebase] in
/-- One if a key_down may cancel a delayed action. -/
def pendingAction (b : Basic) : ℕ :=
  if b.toDelayedAction.currentManipulatedOriginalEvent.isSome then 1 else 0

omit [Exprtk] [SystemClock] [MachTimebase] in
theorem pendingAction_le (b : Basic) : b.pendingAction ≤ 1 := by
  unfold pendingAction
  split_ifs <;> decide

/-- What `manipulate` does for every entry: it may cancel a delayed action. -/
theorem observe_drain (b : Basic) (front : Entry) (output : Output) :
    (b.observe front output).1.definition = b.definition ∧
      (b.observe front output).1.pendingAction ≤ b.pendingAction ∧
      ((b.observe front output).1.pendingAction = b.pendingAction →
        (b.observe front output).2.queue.events = output.queue.events) := by
  have hdef := (b.sameHeld_observe front output).definition
  refine ⟨hdef, ?_⟩
  let b₁ := (b.unsetAloneIfNeeded front.event front.eventType).cancelHeldDown front
  have haction : b₁.toDelayedAction = b.toDelayedAction := by
    simp only [b₁, cancelHeldDown, unsetAloneIfNeeded, mapObjects]
    split_ifs <;> rfl
  have hpending : b₁.pendingAction = b.pendingAction := by rw [pendingAction, haction]; rfl
  change (b₁.cancelDelayedAction front output).1.pendingAction ≤ _ ∧
    ((b₁.cancelDelayedAction front output).1.pendingAction = _ →
      (b₁.cancelDelayedAction front output).2.queue.events = _)
  rw [← hpending]
  have hcases := b₁.cancelsDelayedAction front output
  generalize b₁.cancelDelayedAction front output = r at hcases
  cases hcases with
  | idle => exact ⟨le_rfl, fun _ => rfl⟩
  | @posts b₂ action hnext =>
      refine ⟨Nat.zero_le _, fun hsame => ?_⟩
      have hpress : b₂.toDelayedAction.currentManipulatedOriginalEvent =
          b₁.toDelayedAction.currentManipulatedOriginalEvent := by rw [hnext]
      have hnone : b₁.toDelayedAction.currentManipulatedOriginalEvent = none := by
        by_contra hsome
        have hone : b₁.pendingAction = 1 := by
          rw [pendingAction, if_pos (Option.isSome_iff_ne_none.mpr hsome)]
        rw [hone] at hsame
        exact absurd hsame (by simp [postDelayedEvents, pendingAction])
      unfold postDelayedEvents
      simp only [hpress, hnone]
      split
      · rename_i h
        cases h
      · rfl

omit [Exprtk] [SystemClock] in
/-- The front entry with its input delay raised by the manipulator. -/
theorem delayInput_cases (b : Basic) (front : Entry) :
    (b.delayInput front).eventTimeStamp.inputDelayDuration =
        front.eventTimeStamp.inputDelayDuration ∨
      (b.delayInput front).eventTimeStamp.inputDelayDuration = b.definition.simultaneousThreshold ∧
        front.eventTimeStamp.inputDelayDuration < b.definition.simultaneousThreshold := by
  rcases le_or_gt b.definition.simultaneousThreshold front.eventTimeStamp.inputDelayDuration with
    h | h
  · exact Or.inl (max_eq_left h)
  · exact Or.inr ⟨max_eq_right h.le, h⟩

omit [Exprtk] [SystemClock] in
/-- The input delay of the front entry stays, or is raised to the threshold of the manipulator. -/
def Raised (b : Basic) (front front' : Entry) : Prop :=
  Delayed front front' ∧
    (front'.eventTimeStamp.inputDelayDuration = front.eventTimeStamp.inputDelayDuration ∨
      front'.eventTimeStamp.inputDelayDuration = b.definition.simultaneousThreshold ∧
        front.eventTimeStamp.inputDelayDuration < b.definition.simultaneousThreshold)

/-- What `manipulate` may do to the front entry, the actions and the output queue. -/
inductive Drain (b : Basic) (front : Entry) (output : Output) (now : AbsoluteTime)
    (r : Manipulated) : Prop
  | passed (result : r.result = .passed) (raised : b.Raised front r.front)
      (pending : r.basic.pendingAction ≤ b.pendingAction)
      (quiet : r.basic.pendingAction = b.pendingAction →
        r.output.queue.events = output.queue.events)
  | waits (result : r.result = .needsWaitUntilTimeStamp) (raised : b.Raised front r.front)
      (down : front.eventType = .keyDown)
      (early : now < r.front.eventTimeStamp.makeTimeStampWithInputDelay)
      (pending : r.basic.pendingAction ≤ b.pendingAction)
      (quiet : r.basic.pendingAction = b.pendingAction →
        ∃ stop, stop.isStop = true ∧ r.output.queue.events = output.queue.events ++ [stop])
  | manipulated (result : r.result = .manipulated) (consumed : Consumed front r.front)

omit [Exprtk] [SystemClock] [MachTimebase] in
/-- A consumed entry is invalid. -/
theorem Consumed.invalid {front front' : Entry} (h : Consumed front front') :
    front'.validity = .invalid := by
  obtain ⟨d, rfl⟩ := h
  rfl

omit [SystemClock] in
/-- What is done for every entry comes before the rest, and does no more than the rest may. -/
theorem Drain.of_observe {b b₁ : Basic} {front : Entry} {output output₁ : Output}
    {now : AbsoluteTime} {r : Manipulated} (definition : b₁.definition = b.definition)
    (pending₁ : b₁.pendingAction ≤ b.pendingAction)
    (quiet₁ : b₁.pendingAction = b.pendingAction → output₁.queue.events = output.queue.events)
    (h : Drain b₁ front output₁ now r) : Drain b front output now r := by
  cases h with
  | passed result raised pending quiet =>
      rw [Raised, definition] at raised
      refine .passed result raised (pending.trans pending₁) fun heq => ?_
      have h₁ : b₁.pendingAction = b.pendingAction := by omega
      rw [quiet (by omega), quiet₁ h₁]
  | waits result raised down early pending quiet =>
      rw [Raised, definition] at raised
      refine .waits result raised down early (pending.trans pending₁) fun heq => ?_
      have h₁ : b₁.pendingAction = b.pendingAction := by omega
      rw [← quiet₁ h₁]
      exact quiet (by omega)
  | manipulated result consumed => exact .manipulated result consumed

/-- **What `manipulate` may do** to the front entry, the actions and the output queue. -/
theorem drain_manipulate (b : Basic) (front : Entry) (rest : List Entry) (output : Output)
    (now : AbsoluteTime) : Drain b front output now (b.manipulate front rest output now) := by
  obtain ⟨definition, pending, quiet⟩ := b.observe_drain front output
  have hcases := b.manipulates_manipulate front rest output now
  generalize b.observe front output = observed at definition pending quiet hcases
  obtain ⟨b₁, output₁⟩ := observed
  refine .of_observe definition pending quiet ?_
  dsimp only at hcases ⊢
  have hraised : b₁.Raised front (b₁.delayInput front) := ⟨⟨_, rfl⟩, b₁.delayInput_cases front⟩
  generalize b.manipulate front rest output now = r at hcases
  cases hcases with
  | passed hdelayed hsame =>
      rcases hdelayed with rfl | rfl
      · exact .passed rfl ⟨⟨_, rfl⟩, Or.inl rfl⟩ le_rfl fun _ => hsame.events
      · exact .passed rfl hraised le_rfl fun _ => hsame.events
  | waits hsame _ down early =>
      refine .waits rfl hraised down early le_rfl fun _ => ?_
      exact ⟨_, (Entry.isStop_iff _).mpr ⟨rfl, rfl⟩, congrArg (· ++ [_]) hsame.events⟩
  | captured hdelayed =>
      obtain ⟨d, rfl⟩ := exists_inputDelay hdelayed
      exact .manipulated rfl ⟨d, rfl⟩
  | released => exact .manipulated rfl ⟨front.eventTimeStamp.inputDelayDuration, rfl⟩

/-- `manipulate` keeps the definition. -/
theorem definition_manipulate (b : Basic) (front : Entry) (rest : List Entry) (output : Output)
    (now : AbsoluteTime) :
    (b.manipulate front rest output now).basic.definition = b.definition := by
  have hobserve := (b.sameHeld_observe front output).definition
  have hcases := b.manipulates_manipulate front rest output now
  generalize b.observe front output = observed at hobserve hcases
  obtain ⟨b₁, output₁⟩ := observed
  rw [← hobserve]
  dsimp only at hcases ⊢
  generalize b.manipulate front rest output now = r at hcases
  cases hcases with
  | passed => rfl
  | waits => rfl
  | captured => exact (b₁.adds_capture _ _ _ _).definition
  | @released id =>
      have hfinish := sameHeld_finish (b₁.eraseFromEvent id front.fromEvent) front id
        b₁.definition.fromEvents_postKeyUp output₁
      exact hfinish.definition.trans (b₁.eraseFromEvent_keeps id front.fromEvent).1

end Basic

namespace Slot

/-! ### The loop over the manipulators -/

/-- The actions that a key_down may cancel. -/
def pendingActions (slots : List Slot) : ℕ := (slots.map fun slot => slot.basic.pendingAction).sum

section Thresholds

variable [MachTimebase]

/-- The thresholds of the manipulators. -/
def thresholds (slots : List Slot) : List AbsoluteTime :=
  slots.map fun slot => slot.basic.definition.simultaneousThreshold

end Thresholds

variable [Exprtk] [SystemClock] [MachTimebase]

/-- Manipulation leaves the definitions, and with them the thresholds, as they are. -/
theorem thresholds_manipulateAll (rest : List Entry) (now : AbsoluteTime) (slots : List Slot)
    (front : Entry) (output : Output) :
    thresholds (manipulateAll rest now slots front output).slots = thresholds slots := by
  induction slots generalizing front output with
  | nil => rfl
  | cons slot slots ih =>
      have hslot := slot.basic.definition_manipulate front rest output now
      unfold manipulateAll
      dsimp only
      split_ifs
      · simp [thresholds, hslot]
      · have hrest := ih (slot.basic.manipulate front rest output now).front
          (slot.basic.manipulate front rest output now).output
        simp only [thresholds, List.map_cons, hslot] at hrest ⊢
        rw [hrest]

/-- Once the front entry has been consumed, the rest of the loop sets no action up. -/
theorem pendingActions_manipulateAll_of_invalid (rest : List Entry) (now : AbsoluteTime)
    (slots : List Slot) {front : Entry} (hfront : front.validity = .invalid) (output : Output) :
    (manipulateAll rest now slots front output).waits = false ∧
      pendingActions (manipulateAll rest now slots front output).slots ≤ pendingActions slots := by
  induction slots generalizing output with
  | nil => exact ⟨rfl, le_rfl⟩
  | cons slot slots ih =>
      obtain ⟨hwaits, hle⟩ := ih (slot.basic.observe front output).2
      have hslot := (slot.basic.observe_drain front output).2.1
      unfold manipulateAll
      rw [Basic.manipulate_of_invalid _ hfront]
      dsimp only
      rw [if_neg (by decide)]
      refine ⟨hwaits, ?_⟩
      simp only [pendingActions, List.map_cons, List.sum_cons] at hle ⊢
      omega

/-- The loop sets at most one action up. -/
theorem pendingActions_manipulateAll (rest : List Entry) (now : AbsoluteTime) (slots : List Slot)
    (front : Entry) (output : Output) :
    pendingActions (manipulateAll rest now slots front output).slots ≤
      pendingActions slots + 1 := by
  induction slots generalizing front output with
  | nil => exact Nat.zero_le _
  | cons slot slots ih =>
      have hone := (slot.basic.manipulate front rest output now).basic.pendingAction_le
      unfold manipulateAll
      dsimp only
      split_ifs with hwaits
      · simp only [pendingActions, List.map_cons, List.sum_cons]
        omega
      · have hrest := ih (slot.basic.manipulate front rest output now).front
          (slot.basic.manipulate front rest output now).output
        simp only [pendingActions, List.map_cons, List.sum_cons] at hrest ⊢
        cases slot.basic.drain_manipulate front rest output now with
        | passed _ _ pending => omega
        | waits _ _ _ _ pending => omega
        | manipulated _ consumed =>
            have hle := (pendingActions_manipulateAll_of_invalid rest now slots consumed.invalid
              (slot.basic.manipulate front rest output now).output).2
            simp only [pendingActions] at hle
            omega

/-- The loop keeps the content of the front entry. -/
theorem content_manipulateAll (rest : List Entry) (now : AbsoluteTime) (slots : List Slot)
    (front : Entry) (output : Output) :
    (manipulateAll rest now slots front output).front.content = front.content := by
  induction slots generalizing front output with
  | nil => rfl
  | cons slot slots ih =>
      have hslot : (slot.basic.manipulate front rest output now).front.content = front.content := by
        cases slot.basic.drain_manipulate front rest output now with
        | passed _ raised =>
            obtain ⟨d, hd⟩ := raised.1
            rw [hd]
            rfl
        | waits _ raised =>
            obtain ⟨d, hd⟩ := raised.1
            rw [hd]
            rfl
        | manipulated _ consumed =>
            obtain ⟨d, hd⟩ := consumed
            rw [hd]
            rfl
      unfold manipulateAll
      dsimp only
      split_ifs
      · exact hslot
      · exact (ih _ _).trans hslot

/-- **A loop that stops to wait**: the front entry is a key_down that waits for a threshold or for
its own delay, and if no action is cancelled, only a `stop_keyboard_repeat` entry is posted. -/
theorem manipulateAll_waits (rest : List Entry) (now : AbsoluteTime) (slots : List Slot)
    (front : Entry) (output : Output)
    (hwaits : (manipulateAll rest now slots front output).waits = true) :
    let p := manipulateAll rest now slots front output
    front.eventType = .keyDown ∧ Basic.Delayed front p.front ∧
      now < p.front.eventTimeStamp.makeTimeStampWithInputDelay ∧
      (p.front.eventTimeStamp.inputDelayDuration = front.eventTimeStamp.inputDelayDuration ∨
        p.front.eventTimeStamp.inputDelayDuration ∈ thresholds slots ∧
          front.eventTimeStamp.inputDelayDuration < p.front.eventTimeStamp.inputDelayDuration) ∧
      pendingActions p.slots ≤ pendingActions slots ∧
      (pendingActions p.slots = pendingActions slots →
        ∃ stop, stop.isStop = true ∧ p.output.queue.events = output.queue.events ++ [stop]) := by
  induction slots generalizing front output with
  | nil => cases hwaits
  | cons slot slots ih =>
      unfold manipulateAll at hwaits ⊢
      dsimp only at hwaits ⊢
      have hraise {d : AbsoluteTime}
          (h : d = slot.basic.definition.simultaneousThreshold) : d ∈ thresholds (slot :: slots) :=
        h ▸ List.mem_cons_self
      cases slot.basic.drain_manipulate front rest output now with
      | passed result raised pending quiet =>
          rw [if_neg (by rw [result]; decide)] at hwaits ⊢
          obtain ⟨hdown, hdelayed, hearly, hdelay, hpending, hquiet⟩ := ih _ _ hwaits
          obtain ⟨⟨d, hd⟩, hslot⟩ := raised
          obtain ⟨d', hd'⟩ := hdelayed
          have htype := congrArg Entry.eventType hd
          refine ⟨htype.symm.trans hdown, ⟨d', by rw [hd', hd]⟩, hearly, ?_, ?_, fun heq => ?_⟩
          · rcases hdelay with heq | ⟨hmem, hlt⟩
            · rw [heq]
              rcases hslot with heq' | ⟨heq', hlt⟩
              · exact Or.inl heq'
              · exact Or.inr ⟨hraise heq', heq' ▸ hlt⟩
            · refine Or.inr ⟨List.mem_cons_of_mem _ hmem, ?_⟩
              rcases hslot with heq | ⟨heq, hlt'⟩
              · exact heq ▸ hlt
              · exact hlt'.trans (heq ▸ hlt)
          · simp only [pendingActions, List.map_cons, List.sum_cons] at hpending ⊢
            omega
          · simp only [pendingActions, List.map_cons, List.sum_cons] at heq hpending hquiet
            rw [← quiet (by omega)]
            exact hquiet (by omega)
      | waits result raised down early pending quiet =>
          rw [if_pos result]
          refine ⟨down, raised.1, early, ?_, ?_, fun heq => quiet ?_⟩
          · rcases raised.2 with heq | ⟨heq, hlt⟩
            · exact Or.inl heq
            · exact Or.inr ⟨hraise heq, heq ▸ hlt⟩
          · simp only [pendingActions, List.map_cons, List.sum_cons]
            omega
          · simp only [pendingActions, List.map_cons, List.sum_cons] at heq
            omega
      | manipulated result consumed =>
          rw [if_neg (by rw [result]; decide)] at hwaits
          have hnot := (pendingActions_manipulateAll_of_invalid rest now slots consumed.invalid
            (slot.basic.manipulate front rest output now).output).1
          exact absurd (hwaits.symm.trans hnot) (by decide)

/-- No manipulator does anything to an entry that stops the keyboard repeat. -/
theorem manipulateAll_stop (rest : List Entry) (now : AbsoluteTime) (slots : List Slot)
    {front : Entry} (hfront : front.isStop = true) (output : Output) :
    manipulateAll rest now slots front output = ⟨false, slots, front, output⟩ := by
  obtain ⟨hevent, hsingle⟩ := front.isStop_iff.mp hfront
  induction slots with
  | nil => rfl
  | cons slot slots ih =>
      have hslot : slot.basic.manipulate front rest output now =
          ⟨.passed, slot.basic, front, output⟩ := by
        have hobserve : slot.basic.observe front output = (slot.basic, output) := by
          have hheld : (slot.basic.unsetAloneIfNeeded front.event front.eventType).cancelHeldDown
              front = slot.basic := by
            simp [Basic.unsetAloneIfNeeded, Basic.unsetsAlone, hevent, Basic.cancelHeldDown,
              hsingle]
          rw [Basic.observe, hheld, Basic.cancelDelayedAction]
          cases slot.basic.definition.toDelayedAction <;> simp [hsingle]
        have htest : slot.basic.definition.from_.testEvent front.event = false := by
          rw [Bool.eq_false_iff]
          intro h
          obtain ⟨e, he⟩ := FromEventDefinition.exists_of_testEvent h
          rw [hevent] at he
          cases he
        simp [Basic.manipulate, hobserve, htest]
      unfold manipulateAll
      rw [hslot]
      dsimp only
      rw [if_neg (by decide), ih]

end Slot

/-! ### Weights -/

/-- How often an entry may still make progress: it can be processed, and its input delay can be
raised to every threshold beyond it. -/
def Entry.weight (thresholds : List AbsoluteTime) (e : Entry) : ℕ :=
  if e.isStop then 0
  else 2 + thresholds.countP fun t => e.eventTimeStamp.inputDelayDuration < t

/-- The time stamp at which an entry is due: no manipulator with one of the thresholds delays it any
longer. -/
def Entry.dueTimeStamp (thresholds : List AbsoluteTime) (e : Entry) : AbsoluteTime :=
  e.eventTimeStamp.timeStamp + thresholds.foldr max e.eventTimeStamp.inputDelayDuration

/-- No input delay that an entry can have goes beyond the time at which it is due. -/
theorem Entry.le_dueTimeStamp {thresholds : List AbsoluteTime} {e : Entry} {d : AbsoluteTime}
    (h : d = e.eventTimeStamp.inputDelayDuration ∨ d ∈ thresholds) :
    e.eventTimeStamp.timeStamp + d ≤ e.dueTimeStamp thresholds := by
  refine add_le_add_right ?_ _
  induction thresholds with
  | nil => exact (h.resolve_right (by simp)).le
  | cons t ts ih =>
      rw [List.foldr_cons, le_max_iff]
      rcases h with h | h
      · exact Or.inr (ih (Or.inl h))
      · rcases List.mem_cons.mp h with rfl | h
        · exact Or.inl le_rfl
        · exact Or.inr (ih (Or.inr h))

namespace Queue

/-- The weight of a queue, for the manipulators that it is the input queue of. -/
def weight (thresholds : List AbsoluteTime) (events : List Entry) : ℕ :=
  (events.map (Entry.weight thresholds)).sum + inversions events

variable {thresholds : List AbsoluteTime} {events events' events'' : List Entry}

/-- Entries that stop the keyboard repeat are never swapped. -/
theorem needsSwap_of_isStop {e : Entry} (h : e.isStop = true) (v : Entry) :
    needsSwap v e = false ∧ needsSwap e v = false := by
  have hevent := (e.isStop_iff.mp h).1
  constructor
  · unfold needsSwap
    split_ifs
    · cases v.event.getMomentarySwitchEvent <;> simp [hevent, Event.getMomentarySwitchEvent]
    · rfl
  · unfold needsSwap
    split_ifs
    · simp [hevent, Event.getMomentarySwitchEvent]
    · rfl

theorem weight_concat {e : Entry} (h : e.isStop = true) :
    weight thresholds (events ++ [e]) = weight thresholds events := by
  simp [weight, inversions_concat events fun v => (needsSwap_of_isStop h v).1, Entry.weight, h]

/-- Entries that stop the keyboard repeat weigh nothing, however many there are. -/
theorem weight_append_stops {stops : List Entry} (h : ∀ e ∈ stops, e.isStop = true) :
    weight thresholds (events ++ stops) = weight thresholds events := by
  induction stops using List.reverseRecOn with
  | nil => rw [List.append_nil]
  | append_singleton stops e ih =>
      rw [← List.append_assoc, weight_concat (h e (by simp)),
        ih fun e he => h e (List.mem_append_left _ he)]

/-- The queue has lost weight, or it has only been extended by entries without weight. -/
def Quiet (thresholds : List AbsoluteTime) (events events' : List Entry) : Prop :=
  weight thresholds events' < weight thresholds events ∨
    ∃ stops, events' = events ++ stops ∧ ∀ e ∈ stops, e.isStop = true

namespace Quiet

theorem refl : Quiet thresholds events events := Or.inr ⟨[], by simp, by simp⟩

theorem le (h : Quiet thresholds events events') :
    weight thresholds events' ≤ weight thresholds events := by
  rcases h with h | ⟨stops, rfl, hstops⟩
  · exact h.le
  · exact (weight_append_stops hstops).le

theorem trans (h : Quiet thresholds events events') (h' : Quiet thresholds events' events'') :
    Quiet thresholds events events'' := by
  rcases h with h | ⟨stops, rfl, hstops⟩
  · exact Or.inl (h'.le.trans_lt h)
  · rcases h' with h' | ⟨stops', rfl, hstops'⟩
    · exact Or.inl (h'.trans_eq (weight_append_stops hstops))
    · refine Or.inr ⟨stops ++ stops', List.append_assoc _ _ _, fun e he => ?_⟩
      exact (List.mem_append.mp he).elim (hstops e) (hstops' e)

theorem concat {e : Entry} (h : e.isStop = true) : Quiet thresholds events (events ++ [e]) :=
  Or.inr ⟨[e], rfl, fun _ he => List.mem_singleton.mp he ▸ h⟩

/-- Sorting swaps entries that have to be swapped, and makes the queue lighter by that. -/
theorem sortEvents (q : Queue) : Quiet thresholds q.events q.sortEvents.events := by
  obtain ⟨hperm, heq | hlt⟩ := q.sortEvents_spec
  · rw [heq]
    exact refl
  · refine Or.inl ?_
    have hsum := (hperm.map (Entry.weight thresholds)).sum_eq
    simp only [weight, hsum]
    omega

end Quiet

/-- The entries without the front one. -/
theorem weight_cons (e : Entry) :
    weight thresholds events + e.weight thresholds ≤ weight thresholds (e :: events) ∧
      (e.isStop = true → weight thresholds (e :: events) = weight thresholds events) := by
  constructor
  · simp only [weight, List.map_cons, List.sum_cons, inversions]
    omega
  · intro h
    have hcount : events.countP (needsSwap e) = 0 :=
      List.countP_eq_zero.mpr fun v _ => by simp [(needsSwap_of_isStop h v).2]
    simp [weight, inversions, hcount, Entry.weight, h]

/-- With fewer thresholds an entry has less to wait for. -/
theorem weight_sublist {thresholds' : List AbsoluteTime} (hsub : thresholds'.Sublist thresholds)
    (e : Entry) : e.weight thresholds' ≤ e.weight thresholds := by
  unfold Entry.weight
  split_ifs
  · exact le_rfl
  · exact Nat.add_le_add_left hsub.countP_le _

/-- The threshold that an input delay has been raised to no longer counts. -/
theorem countP_lt {d d' : AbsoluteTime} (hlt : d < d') (hmem : d' ∈ thresholds) :
    (thresholds.countP fun t => d' < t) < thresholds.countP fun t => d < t := by
  obtain ⟨before, after, rfl⟩ := List.mem_iff_append.mp hmem
  have hle (ts : List AbsoluteTime) :
      (ts.countP fun t => d' < t) ≤ ts.countP fun t => d < t :=
    List.countP_mono_left fun t _ ht => by
      rw [decide_eq_true_eq] at ht ⊢
      exact hlt.trans ht
  have hbefore := hle before
  have hafter := hle after
  simp only [List.countP_append, List.countP_cons, lt_irrefl, hlt]
  simp
  omega

/-- A raised input delay and fewer thresholds make the queue lighter. -/
theorem weight_raise {thresholds' : List AbsoluteTime} (hsub : thresholds'.Sublist thresholds)
    {front front' : Entry} (hdelayed : Basic.Delayed front front') (hstop : front.isStop = false)
    (hraise : front'.eventTimeStamp.inputDelayDuration = front.eventTimeStamp.inputDelayDuration ∨
      front'.eventTimeStamp.inputDelayDuration ∈ thresholds ∧
        front.eventTimeStamp.inputDelayDuration < front'.eventTimeStamp.inputDelayDuration) :
    weight thresholds' (front' :: events) ≤ weight thresholds (front :: events) ∧
      (weight thresholds' (front' :: events) = weight thresholds (front :: events) →
        front' = front) := by
  have hsum : (events.map (Entry.weight thresholds')).sum ≤
      (events.map (Entry.weight thresholds)).sum :=
    List.sum_le_sum fun e _ => weight_sublist hsub e
  obtain ⟨d, hd⟩ := hdelayed
  have hinversions : inversions (front' :: events) = inversions (front :: events) := by
    rw [hd]
    rfl
  have hstop' : front'.isStop = false := by
    rw [hd]
    exact hstop
  rcases hraise with hsame | ⟨hmem, hlt⟩
  · obtain rfl : front' = front := by
      rw [hd] at hsame ⊢
      rw [show d = front.eventTimeStamp.inputDelayDuration from hsame]
    refine ⟨?_, fun _ => rfl⟩
    have hfront := weight_sublist hsub front'
    simp only [weight, List.map_cons, List.sum_cons]
    omega
  · have hless : front'.weight thresholds' < front.weight thresholds := by
      have hcount := countP_lt hlt hmem
      have hsub' := hsub.countP_le
        (p := fun t => decide (front'.eventTimeStamp.inputDelayDuration < t))
      simp only [Entry.weight, hstop, hstop', Bool.false_eq_true, if_false]
      omega
    have hltw : weight thresholds' (front' :: events) < weight thresholds (front :: events) := by
      simp only [weight, List.map_cons, List.sum_cons, hinversions]
      omega
    exact ⟨hltw.le, fun heq => absurd heq hltw.ne⟩

end Queue

/-! ### One step of a connection -/

namespace Connection

variable [Exprtk]

/-- How much progress the connection can still make. -/
def potential [MachTimebase] (c : Connection) : ℕ :=
  Queue.weight (Slot.thresholds c.manager.manipulators) c.input.events +
    Slot.pendingActions c.manager.manipulators

variable [SystemClock] [MachTimebase]

/-- An entry that stops the keyboard repeat is passed on. -/
theorem handleFront_stop (c : Connection) {front : Entry} (hfront : front.isStop = true)
    (rest : List Entry) (now : AbsoluteTime) :
    c.handleFront front rest now = ⟨false, c.manager, front, c.output⟩ := by
  obtain ⟨hevent, hsingle⟩ := front.isStop_iff.mp hfront
  have hnot : c.manager.alreadyManipulated front = false := by
    simp [ManipulatorManager.alreadyManipulated, Basic.alreadyManipulated, hsingle]
  unfold handleFront
  rw [hevent]
  dsimp only
  rw [manipulateFront, hnot, Slot.manipulateAll_stop rest now _ hfront]
  simp

/-- The `switch` keeps the thresholds and the content of the entry, and sets at most one action up.
-/
theorem handleFront_drain (c : Connection) (front : Entry) (rest : List Entry)
    (now : AbsoluteTime) :
    let h := c.handleFront front rest now
    Slot.thresholds h.manager.manipulators = Slot.thresholds c.manager.manipulators ∧
      Slot.pendingActions h.manager.manipulators ≤
        Slot.pendingActions c.manager.manipulators + 1 ∧
      h.front.content = front.content := by
  have hfront : let h := c.manipulateFront front rest now
      Slot.thresholds h.manager.manipulators = Slot.thresholds c.manager.manipulators ∧
        Slot.pendingActions h.manager.manipulators ≤
          Slot.pendingActions c.manager.manipulators + 1 ∧
        h.front.content = front.content := by
    unfold manipulateFront
    split_ifs
    · exact ⟨rfl, Nat.le_succ _, rfl⟩
    · exact ⟨Slot.thresholds_manipulateAll rest now _ front c.output,
        Slot.pendingActions_manipulateAll rest now _ front c.output,
        Slot.content_manipulateAll rest now _ front c.output⟩
  have hmap (f : Basic → Basic) (hdefinition : ∀ b, (f b).definition = b.definition)
      (hpending : ∀ b, (f b).pendingAction = b.pendingAction) :
      Slot.thresholds (c.manager.map f).manipulators = Slot.thresholds c.manager.manipulators ∧
        Slot.pendingActions (c.manager.map f).manipulators ≤
          Slot.pendingActions c.manager.manipulators + 1 := by
    simp [Slot.thresholds, Slot.pendingActions, ManipulatorManager.map, Function.comp_def,
      hdefinition, hpending]
  unfold handleFront
  cases front.event with
  | deviceUngrabbed =>
      obtain ⟨hthresholds, hpending⟩ :=
        hmap (fun b => b.handleDeviceUngrabbedEvent front.deviceId) (fun _ => rfl) fun _ => rfl
      exact ⟨hthresholds, hpending, rfl⟩
  | pointingDeviceEventFromEventTap =>
      obtain ⟨hthresholds, hpending⟩ :=
        hmap (fun b => b.handlePointingDeviceEventFromEventTap front)
          (fun b => by
            unfold Basic.handlePointingDeviceEventFromEventTap Basic.unsetAloneIfNeeded
            split_ifs <;> rfl)
          fun b => by
            unfold Basic.handlePointingDeviceEventFromEventTap Basic.unsetAloneIfNeeded
            split_ifs <;> rfl
      exact ⟨hthresholds, hpending, rfl⟩
  | _ => first | exact hfront | exact ⟨rfl, Nat.le_succ _, rfl⟩

/-- When the `switch` waits, the loop over the manipulators does. -/
theorem handleFront_waits (c : Connection) {front : Entry} {rest : List Entry}
    {now : AbsoluteTime} (hwaits : (c.handleFront front rest now).waits = true) :
    let p := Slot.manipulateAll rest now c.manager.manipulators front c.output
    p.waits = true ∧ c.handleFront front rest now =
      ⟨true, { c.manager with manipulators := p.slots }, p.front, p.output⟩ := by
  have hfront (h : (c.manipulateFront front rest now).waits = true) :
      let p := Slot.manipulateAll rest now c.manager.manipulators front c.output
      p.waits = true ∧ c.manipulateFront front rest now =
        ⟨true, { c.manager with manipulators := p.slots }, p.front, p.output⟩ := by
    unfold manipulateFront at h ⊢
    split_ifs at h ⊢
    dsimp only at h ⊢
    exact ⟨h, by rw [h]⟩
  unfold handleFront at hwaits ⊢
  cases hevent : front.event <;> simp only [hevent] at hwaits ⊢ <;>
    first | exact hfront hwaits | exact absurd hwaits (by decide)

omit [SystemClock] in
/-- The entries behind the front one are lighter. -/
theorem weight_add_lt {c : Connection} {front : Entry} {rest : List Entry}
    (hevents : c.input.events = front :: rest) (hfront : front.isStop = false) :
    Queue.weight (Slot.thresholds c.manager.manipulators) rest +
      Slot.pendingActions c.manager.manipulators + 1 < c.potential := by
  have hweight : Queue.weight (Slot.thresholds c.manager.manipulators) rest + _ ≤ _ :=
    (Queue.weight_cons front).1
  have htwo : 2 ≤ front.weight (Slot.thresholds c.manager.manipulators) := by
    rw [Entry.weight, hfront]
    exact Nat.le_add_right _ _
  rw [potential, hevents]
  omega

/-- A step that processes the front entry. -/
structure Processes (c c' : Connection) (front front' : Entry) (rest : List Entry) : Prop where
  events : c.input.events = front :: rest
  events' : c'.input.events = rest
  processed : c'.processed = c.processed ++ [front']
  content : front'.content = front.content
  thresholds : Slot.thresholds c'.manager.manipulators = Slot.thresholds c.manager.manipulators
  potential : front.isStop = false → c'.potential < c.potential
  stop : front.isStop = true → c'.potential = c.potential ∧
    ∀ thresholds, Queue.Quiet thresholds c.output.queue.events c'.output.queue.events

/-- **A step that processes an entry** lowers the potential, unless the entry has no weight. -/
theorem manipulate_processes {c : Connection} {now : AbsoluteTime} (h : c.processes now = true)
    (reorder : Bool) :
    ∃ front front' rest, Processes c (c.manipulate now reorder) front front' rest := by
  cases hevents : c.input.events with
  | nil => simp [processes, hevents] at h
  | cons front rest =>
      have hwaits : (c.handleFront front rest now).waits = false := by
        simpa [processes, hevents] using h
      have hmanipulate : c.manipulate now reorder =
          { input := c.input.eraseFrontEvent
            manager := (c.handleFront front rest now).manager
            output := copyFront (c.handleFront front rest now).front reorder
              (c.handleFront front rest now).output
            processed := c.processed ++ [(c.handleFront front rest now).front] } := by
        unfold manipulate
        rw [hevents]
        dsimp only
        rw [hwaits, if_neg (by decide)]
      obtain ⟨hthresholds, hpending, hcontent⟩ := c.handleFront_drain front rest now
      have hrest : c.input.eraseFrontEvent.events = rest := by
        rw [Queue.eraseFrontEvent, hevents]
        rfl
      refine ⟨front, (c.handleFront front rest now).front, rest, ?_⟩
      rw [hmanipulate]
      refine ⟨hevents, hrest, rfl, hcontent, hthresholds, fun hfront => ?_, fun hfront => ?_⟩
      · have hlt := weight_add_lt hevents hfront
        have hnew : potential ⟨c.input.eraseFrontEvent, (c.handleFront front rest now).manager,
            copyFront (c.handleFront front rest now).front reorder
              (c.handleFront front rest now).output,
            c.processed ++ [(c.handleFront front rest now).front]⟩ =
            Queue.weight (Slot.thresholds c.manager.manipulators) rest +
              Slot.pendingActions (c.handleFront front rest now).manager.manipulators := by
          rw [potential, hthresholds, hrest]
        omega
      · rw [c.handleFront_stop hfront rest now]
        refine ⟨?_, fun thresholds => ?_⟩
        · rw [potential, potential, hrest, hevents,
            (Queue.weight_cons front).2 hfront]
        · have hcopy : Queue.Quiet thresholds c.output.queue.events
              (if front.validity = .valid then c.output.emplaceBackEntry front
                else c.output).queue.events := by
            split_ifs
            · exact .concat ((Entry.isStop_iff _).mpr ((Entry.isStop_iff _).mp hfront))
            · exact .refl
          unfold copyFront
          generalize (if front.validity = .valid then c.output.emplaceBackEntry front
            else c.output) = output at hcopy ⊢
          cases reorder with
          | false => exact hcopy
          | true => exact hcopy.trans (.sortEvents output.queue)

/-- A step that processes no entry. -/
structure Waits (c c' : Connection) (now : AbsoluteTime) : Prop where
  content : c'.input.events.map Entry.content = c.input.events.map Entry.content
  processed : c'.processed = c.processed
  settled : ∀ front, c'.input.events.head? = some front → front.isStop = false
  due : ∀ front, c.input.events.head? = some front →
    now < front.dueTimeStamp (Slot.thresholds c.manager.manipulators)
  potential : c'.potential ≤ c.potential
  quiet : c'.potential = c.potential →
    (∀ thresholds, Queue.Quiet thresholds c.output.queue.events c'.output.queue.events) ∧
      ∀ front, c.input.events.head? = some front →
        now < front.eventTimeStamp.makeTimeStampWithInputDelay

omit [Exprtk] [SystemClock] [MachTimebase] in
/-- Removing invalid manipulators keeps the others in their order. -/
theorem sublist_removeInvalidManipulators (m : ManipulatorManager) :
    m.removeInvalidManipulators.manipulators.Sublist m.manipulators :=
  List.filter_sublist

omit [Exprtk] [SystemClock] [MachTimebase] in
/-- With fewer manipulators there are fewer delayed actions. -/
theorem pendingActions_sublist {slots slots' : List Slot} (h : slots'.Sublist slots) :
    Slot.pendingActions slots' ≤ Slot.pendingActions slots :=
  (h.map _).sum_le_sum fun _ _ => Nat.zero_le _

/-- **A step that processes no entry** raises the input delay of the front entry, or it changes
nothing but for entries without weight. -/
theorem manipulate_waits {c : Connection} {now : AbsoluteTime} (h : c.processes now = false)
    (reorder : Bool) : Waits c (c.manipulate now reorder) now := by
  cases hevents : c.input.events with
  | nil =>
      have hmanipulate : c.manipulate now reorder =
          { c with manager := c.manager.removeInvalidManipulators } := by
        unfold manipulate
        rw [hevents]
      have hpending := pendingActions_sublist (sublist_removeInvalidManipulators c.manager)
      rw [hmanipulate]
      refine ⟨rfl, rfl, ?_, by simp [hevents], ?_, fun _ => ⟨fun _ => .refl, by simp [hevents]⟩⟩
      · simp [hevents]
      · simp only [potential, hevents]
        exact Nat.add_le_add_left hpending _
  | cons front rest =>
      have hwaits : (c.handleFront front rest now).waits = true := by
        simpa [processes, hevents] using h
      obtain ⟨hloop, hhandled⟩ := c.handleFront_waits hwaits
      obtain ⟨hdown, hdelayed, hearly, hraise, hpending, hquiet⟩ :=
        Slot.manipulateAll_waits rest now c.manager.manipulators front c.output hloop
      have hthresholds :=
        Slot.thresholds_manipulateAll rest now c.manager.manipulators front c.output
      have hcontent := Slot.content_manipulateAll rest now c.manager.manipulators front c.output
      generalize Slot.manipulateAll rest now c.manager.manipulators front c.output = p at *
      obtain ⟨m, hsub, hmanipulate⟩ : ∃ m : ManipulatorManager, m.manipulators.Sublist p.slots ∧
          c.manipulate now reorder =
            { c with
              input := { c.input with events := p.front :: rest }
              manager := m
              output := p.output } := by
        refine ⟨{ c.manager with manipulators := p.slots }.removeInvalidManipulators,
          sublist_removeInvalidManipulators _, ?_⟩
        unfold manipulate
        rw [hevents]
        dsimp only
        rw [hhandled, if_pos rfl]
      have hkept := pendingActions_sublist hsub
      have hsub' : (Slot.thresholds m.manipulators).Sublist
          (Slot.thresholds c.manager.manipulators) :=
        hthresholds ▸ hsub.map _
      have htype : p.front.eventType = .keyDown := by
        obtain ⟨d, hd⟩ := hdelayed
        rw [hd]
        exact hdown
      have hnot : front.isStop = false ∧ p.front.isStop = false := by
        simp [Entry.isStop, hdown, htype]
      obtain ⟨hle, heq⟩ := @Queue.weight_raise _ rest _ hsub' _ _ hdelayed hnot.1
        (hraise.imp_right fun h => h)
      rw [hmanipulate]
      refine ⟨?_, rfl, ?_, ?_, ?_, fun hsame => ?_⟩
      · simp [hevents, hcontent]
      · rintro e he
        obtain rfl : p.front = e := Option.some.inj he
        exact hnot.2
      · rintro e he
        rw [hevents] at he
        obtain rfl : front = e := Option.some.inj he
        refine hearly.trans_le ?_
        have hstamp : p.front.eventTimeStamp.timeStamp = front.eventTimeStamp.timeStamp := by
          obtain ⟨d, hd⟩ := hdelayed
          rw [hd]
        rw [EventTimeStamp.makeTimeStampWithInputDelay, hstamp]
        exact Entry.le_dueTimeStamp (hraise.imp_right And.left)
      · simp only [potential, hevents]
        omega
      · simp only [potential, hevents] at hsame
        refine ⟨fun thresholds => ?_, fun e he => ?_⟩
        · obtain ⟨stop, hstop, houtput⟩ := hquiet (by omega)
          rw [houtput]
          exact .concat hstop
        · rw [hevents] at he
          obtain rfl : front = e := Option.some.inj he
          exact heq (by omega) ▸ hearly
end Connection

end Karabiner
