import Karabiner.Manipulator.Types

/-!
# What a rule maps from

`manipulators/basic/simultaneous_options.hpp`, `from_event_definition.hpp` and the scan of the input
queue by which `basic::manipulate` looks for the keys of a simultaneous definition.

* `FromEventDefinition.testEvent` — the events a definition matches.
* `Scan` — the loop over the input queue, as a fold that stops at the threshold (`scan`) or at an
  entry that spoils the definition (`none`).
* `mem_fromEvents_iff` — **what the scan collects**: the first key_down of each matching event
  among the entries it reads.
-/

namespace Karabiner

/-! ### Simultaneous options -/

/-- `simultaneous_options::key_order`. -/
inductive KeyOrder
  | insensitive
  | strict
  | strictInverse
deriving DecidableEq, Repr

/-- `simultaneous_options::key_up_when`. -/
inductive KeyUpWhen
  | any
  | all
deriving DecidableEq, Repr

/-- `simultaneous_options`. -/
structure SimultaneousOptions where
  detectKeyDownUninterruptedly : Bool := false
  keyDownOrder : KeyOrder := .insensitive
  keyUpOrder : KeyOrder := .insensitive
  keyUpWhen : KeyUpWhen := .any
  toAfterKeyUp : List ToEventDefinition := []

/-! ### Definitions -/

/-- `from_event_definition`. -/
structure FromEventDefinition where
  eventDefinitions : List EventDefinition
  fromModifiersDefinition : FromModifiersDefinition := {}
  simultaneousOptions : SimultaneousOptions := {}

namespace AnyType

/-- The usage page of an `any` definition. -/
def usagePage : AnyType → ℤ
  | .keyCode => UsagePage.keyboardOrKeypad
  | .consumerKeyCode => UsagePage.consumer
  | .appleVendorKeyboardKeyCode => UsagePage.appleVendorKeyboard
  | .appleVendorTopCaseKeyCode => UsagePage.appleVendorTopCase
  | .pointingButton => UsagePage.button

end AnyType

namespace EventDefinition

/-- `test_event` of an event and an event definition. -/
def testEvent (event : Event) (d : EventDefinition) : Bool :=
  match event, d with
  | .momentarySwitchEvent e, .momentarySwitchEvent e' => e = e'
  | .momentarySwitchEvent e, .any type => e.valid && e.usagePair.usagePage = type.usagePage
  | _, _ => false

end EventDefinition

namespace FromEventDefinition

/-- `test_event` of an event and a `from_event_definition`. -/
def testEvent (event : Event) (d : FromEventDefinition) : Bool :=
  d.eventDefinitions.any fun e => e.testEvent event

/-- Only momentary switches are matched. -/
theorem exists_of_testEvent {event : Event} {d : FromEventDefinition}
    (h : testEvent event d = true) : ∃ e, event = .momentarySwitchEvent e := by
  obtain ⟨d', -, h⟩ := List.any_eq_true.mp h
  cases event <;> simp_all [EventDefinition.testEvent]

/-- `test_key_order`.  Events beyond the definitions are not tested. -/
def testKeyOrder (events : List Event) (keyOrder : KeyOrder)
    (eventDefinitions : List EventDefinition) : Bool :=
  match keyOrder with
  | .insensitive => true
  | .strict => (events.zip eventDefinitions).all fun p => p.2.testEvent p.1
  | .strictInverse => (events.zip eventDefinitions.reverse).all fun p => p.2.testEvent p.1

end FromEventDefinition

/-! ### From events -/

/-- `manipulated_original_event::from_event`: which key of which device was pressed. -/
structure FromEvent where
  deviceId : DeviceId
  event : Event
  originalEvent : Event
deriving DecidableEq, Repr

/-- The `from_event` of an entry. -/
def Entry.fromEvent (e : Entry) : FromEvent := ⟨e.deviceId, e.event, e.originalEvent⟩

/-- `all_from_events_found`. -/
def FromEventDefinition.allFromEventsFound (d : FromEventDefinition)
    (fromEvents : Finset FromEvent) : Bool :=
  d.eventDefinitions.all fun e => decide (∃ fe ∈ fromEvents, e.testEvent fe.event = true)

/-! ### The scan of the input queue -/

/-- The local variables of the loop over the input queue. -/
structure Scan where
  fromEvents : Finset FromEvent := ∅
  orderedKeyDownEvents : List Event := []
  orderedKeyUpEvents : List Event := []

namespace Scan

/-- The body of the loop for a valid entry before the threshold; `none` is `is_target = false`. -/
def step (d : FromEventDefinition) (s : Scan) (entry : Entry) : Option Scan :=
  match entry.eventType with
  | .keyDown =>
    if d.testEvent entry.event then
      -- Insert the first event if the same events are arrived from different device.
      if ∃ fe ∈ s.fromEvents, fe.event = entry.event then some s
      else
        some { s with
          fromEvents := insert entry.fromEvent s.fromEvents
          orderedKeyDownEvents := s.orderedKeyDownEvents ++ [entry.event] }
    -- Do not manipulate if another event arrived.
    else if !d.simultaneousOptions.detectKeyDownUninterruptedly &&
        !d.allFromEventsFound s.fromEvents then none
    else some s
  | .keyUp =>
    if entry.fromEvent ∈ s.fromEvents then
      -- Do not manipulate if pressed key is released before all from events are pressed.
      if !d.allFromEventsFound s.fromEvents then none
      else if entry.event ∈ s.orderedKeyUpEvents then some s
      else some { s with orderedKeyUpEvents := s.orderedKeyUpEvents ++ [entry.event] }
    else some s
  | .single => some s

end Scan

/-- The loop over the entries of the input queue. -/
def scan (d : FromEventDefinition) (endTimeStamp : AbsoluteTime) : List Entry → Scan → Option Scan
  | [], s => some s
  | entry :: entries, s =>
    if entry.validity = .invalid then scan d endTimeStamp entries s
    else if endTimeStamp < entry.eventTimeStamp.timeStamp then some s
    else
      match s.step d entry with
      | none => none
      | some s => scan d endTimeStamp entries s

/-! ### What the scan collects -/

/-- The entries the scan reads: the valid ones before the first valid one beyond the threshold. -/
def window (endTimeStamp : AbsoluteTime) (entries : List Entry) : List Entry :=
  (entries.filter fun e => e.validity = .valid).takeWhile fun e =>
    e.eventTimeStamp.timeStamp ≤ endTimeStamp

/-- The scan is a fold over the entries it reads. -/
theorem scan_eq_foldlM (d : FromEventDefinition) (endTimeStamp : AbsoluteTime)
    (entries : List Entry) (s : Scan) :
    scan d endTimeStamp entries s = (window endTimeStamp entries).foldlM (Scan.step d) s := by
  induction entries generalizing s with
  | nil => rfl
  | cons e es ih =>
      cases hv : e.validity with
      | invalid =>
          have hw : window endTimeStamp (e :: es) = window endTimeStamp es := by
            simp [window, hv]
          rw [scan, if_pos hv, ih, hw]
      | valid =>
          rw [scan, if_neg (by simp [hv])]
          by_cases ht : endTimeStamp < e.eventTimeStamp.timeStamp
          · have hw : window endTimeStamp (e :: es) = [] := by
              simp [window, hv, ht]
            rw [if_pos ht, hw]
            rfl
          · have hw : window endTimeStamp (e :: es) = e :: window endTimeStamp es := by
              simp [window, hv, not_lt.mp ht]
            rw [if_neg ht, hw, List.foldlM_cons]
            cases s.step d e with
            | none => rfl
            | some s' => exact ih s'

/-- The scan collects an entry that it reads after the entries `before`: it is the first key_down
of a matching event. -/
def IsCollectedAfter (d : FromEventDefinition) (before : List Entry) (e : Entry) : Prop :=
  e.eventType = .keyDown ∧ d.testEvent e.event = true ∧
    ∀ e' ∈ before, e'.eventType = .keyDown → e'.event ≠ e.event

/-- An entry that the scan collects from the entries it reads. -/
def IsCollected (d : FromEventDefinition) (read : List Entry) (e : Entry) : Prop :=
  ∃ before after, read = before ++ e :: after ∧ IsCollectedAfter d before e

namespace IsCollected

variable {d : FromEventDefinition} {read : List Entry} {e : Entry}

theorem mem (h : IsCollected d read e) : e ∈ read := by
  obtain ⟨before, after, rfl, -⟩ := h
  simp

theorem cons_iff (entry : Entry) :
    IsCollected d (entry :: read) e ↔
      (e = entry ∧ entry.eventType = .keyDown ∧ d.testEvent entry.event = true) ∨
        IsCollected d read e ∧ (entry.eventType = .keyDown → entry.event ≠ e.event) := by
  constructor
  · rintro ⟨before, after, heq, hdown, htest, hfirst⟩
    cases before with
    | nil =>
        obtain ⟨rfl, rfl⟩ := List.cons_eq_cons.mp heq
        exact Or.inl ⟨rfl, hdown, htest⟩
    | cons b before =>
        obtain ⟨rfl, rfl⟩ := List.cons_eq_cons.mp heq
        exact Or.inr ⟨⟨before, after, rfl, hdown, htest,
          fun e' he' => hfirst e' (List.mem_cons_of_mem _ he')⟩, hfirst entry List.mem_cons_self⟩
  · rintro (⟨rfl, hdown, htest⟩ | ⟨⟨before, after, rfl, hdown, htest, hfirst⟩, hentry⟩)
    · exact ⟨[], read, rfl, hdown, htest, by simp⟩
    · refine ⟨entry :: before, after, rfl, hdown, htest, fun e' he' => ?_⟩
      rcases List.mem_cons.mp he' with rfl | he'
      · exact hentry
      · exact hfirst e' he'

theorem concat_iff (entry : Entry) :
    IsCollected d (read ++ [entry]) e ↔
      IsCollected d read e ∨ e = entry ∧ entry.eventType = .keyDown ∧
        d.testEvent entry.event = true ∧
        ∀ e' ∈ read, e'.eventType = .keyDown → e'.event ≠ entry.event := by
  constructor
  · rintro ⟨before, after, heq, hdown, htest, hfirst⟩
    cases after using List.reverseRecOn with
    | nil =>
        obtain ⟨rfl, he⟩ := List.append_inj' heq rfl
        obtain rfl : entry = e := by simpa using he
        exact Or.inr ⟨rfl, hdown, htest, hfirst⟩
    | append_singleton after last =>
        rw [← List.cons_append, ← List.append_assoc] at heq
        obtain ⟨rfl, -⟩ := List.append_inj' heq rfl
        exact Or.inl ⟨before, after, rfl, hdown, htest, hfirst⟩
  · rintro (⟨before, after, rfl, hdown, htest, hfirst⟩ | ⟨rfl, hdown, htest, hfirst⟩)
    · exact ⟨before, after ++ [entry], by simp, hdown, htest, hfirst⟩
    · exact ⟨read, [], rfl, hdown, htest, hfirst⟩

/-- Of the key_downs of a matching event, the first is collected. -/
theorem exists_of_mem (he : e ∈ read) (hdown : e.eventType = .keyDown)
    (htest : d.testEvent e.event = true) :
    ∃ e', IsCollected d read e' ∧ e'.event = e.event := by
  induction read using List.reverseRecOn generalizing e with
  | nil => simp at he
  | append_singleton read entry ih =>
      by_cases hread : ∃ e' ∈ read, e'.eventType = .keyDown ∧ e'.event = e.event
      · obtain ⟨e', he', hdown', hevent⟩ := hread
        obtain ⟨f, hf, hfe⟩ := ih he' hdown' (hevent ▸ htest)
        exact ⟨f, (concat_iff entry).mpr (Or.inl hf), hfe.trans hevent⟩
      · rcases List.mem_append.mp he with he | he
        · exact absurd ⟨e, he, hdown, rfl⟩ hread
        · obtain rfl := List.mem_singleton.mp he
          refine ⟨e, (concat_iff e).mpr (Or.inr ⟨rfl, hdown, htest, ?_⟩), rfl⟩
          exact fun e' he' hdown' hevent => hread ⟨e', he', hdown', hevent⟩

end IsCollected

namespace Scan

/-- What one entry adds to the collected from events. -/
theorem fromEvents_step {d : FromEventDefinition} {s s' : Scan} {entry : Entry}
    (h : s.step d entry = some s') :
    s'.fromEvents =
      if entry.eventType = .keyDown ∧ d.testEvent entry.event = true ∧
          ∀ fe ∈ s.fromEvents, fe.event ≠ entry.event then
        insert entry.fromEvent s.fromEvents
      else s.fromEvents := by
  cases ht : entry.eventType with
  | keyDown =>
      simp only [step, ht] at h
      split_ifs at h with htest hevent hspoil
      · cases h
        obtain ⟨fe, hfe, heq⟩ := hevent
        rw [if_neg fun hc => hc.2.2 fe hfe heq]
      · cases h
        rw [if_pos ⟨rfl, htest, fun fe hfe heq => hevent ⟨fe, hfe, heq⟩⟩]
      · cases h
        rw [if_neg fun hc => htest hc.2.1]
  | keyUp =>
      simp only [step, ht] at h
      split_ifs at h <;> cases h <;> simp
  | single =>
      simp only [step, ht] at h
      cases h
      simp

/-- **The scan collects the first key_down of each matching event** among the entries it has
read. -/
theorem mem_fromEvents_iff {d : FromEventDefinition} {read : List Entry} {s : Scan}
    (h : read.foldlM (step d) {} = some s) (fe : FromEvent) :
    fe ∈ s.fromEvents ↔ ∃ e, IsCollected d read e ∧ e.fromEvent = fe := by
  induction read using List.reverseRecOn generalizing s fe with
  | nil =>
      cases h
      simp [IsCollected]
  | append_singleton read entry ih =>
      rw [List.foldlM_append, Option.bind_eq_bind, Option.bind_eq_some_iff] at h
      obtain ⟨s₁, h₁, h⟩ := h
      rw [List.foldlM_cons, Option.bind_eq_bind, Option.bind_eq_some_iff] at h
      obtain ⟨s₂, h₂, h⟩ := h
      cases h
      -- an event was collected exactly when one of its key_downs was read
      have hseen (htest : d.testEvent entry.event = true) :
          (∀ fe ∈ s₁.fromEvents, fe.event ≠ entry.event) ↔
            ∀ e' ∈ read, e'.eventType = .keyDown → e'.event ≠ entry.event := by
        constructor
        · intro hnone e' he' hdown' hevent
          obtain ⟨f, hf, hfe⟩ := IsCollected.exists_of_mem he' hdown' (hevent ▸ htest)
          exact hnone _ ((ih h₁ _).mpr ⟨f, hf, rfl⟩) (hfe.trans hevent)
        · intro hnone fe hfe hevent
          obtain ⟨f, ⟨before, after, rfl, hdown, -, -⟩, rfl⟩ := (ih h₁ fe).mp hfe
          exact hnone f (by simp) hdown hevent
      have hsplit : (∃ e, IsCollected d (read ++ [entry]) e ∧ e.fromEvent = fe) ↔
          fe ∈ s₁.fromEvents ∨ (entry.eventType = .keyDown ∧ d.testEvent entry.event = true ∧
            ∀ fe ∈ s₁.fromEvents, fe.event ≠ entry.event) ∧ entry.fromEvent = fe := by
        rw [ih h₁ fe]
        constructor
        · rintro ⟨e, he, rfl⟩
          rcases (IsCollected.concat_iff entry).mp he with he | ⟨rfl, hdown, htest, hfirst⟩
          · exact Or.inl ⟨e, he, rfl⟩
          · exact Or.inr ⟨⟨hdown, htest, (hseen htest).mpr hfirst⟩, rfl⟩
        · rintro (⟨e, he, rfl⟩ | ⟨⟨hdown, htest, hfirst⟩, rfl⟩)
          · exact ⟨e, (IsCollected.concat_iff entry).mpr (Or.inl he), rfl⟩
          · exact ⟨entry, (IsCollected.concat_iff entry).mpr
              (Or.inr ⟨rfl, hdown, htest, (hseen htest).mp hfirst⟩), rfl⟩
      rw [hsplit, fromEvents_step h₂]
      split_ifs with hnew
      · rw [Finset.mem_insert, or_comm, eq_comm, and_iff_right hnew]
      · simp [hnew]

end Scan

end Karabiner
