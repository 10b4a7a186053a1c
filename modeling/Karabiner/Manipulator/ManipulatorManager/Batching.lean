import Karabiner.Manipulator.ManipulatorManager.Ownership
import Karabiner.Manipulator.ManipulatorManager.Reload

/-!
# Rules from a single event, and how entries are batched

The scan of the input queue reads what is queued behind the front entry, also for a rule from a
single event definition.  Such a rule never waits and captures the front entry whatever comes after
it (`FromEventDefinition.detect_single`); only the from events of the press depend on the rest of
the queue.  An `any` definition collects every other key of its type in the threshold window, and
their key_downs are swallowed.

* `CollectsFrontOnly` — a capture collects nothing but its front entry.
* `Connection.run_batching` — then the output queue does not depend on the batching.
-/

namespace Karabiner

namespace FromEventDefinition

/-! ### The scan for a single event definition -/

/-- All that a scan has found matches the definition, and it has found something. -/
structure Matches (d : EventDefinition) (s : Scan) : Prop where
  exists_ : ∃ fe ∈ s.fromEvents, d.testEvent fe.event = true
  fromEvents : ∀ fe ∈ s.fromEvents, d.testEvent fe.event = true
  keyDown : ∀ e ∈ s.orderedKeyDownEvents, d.testEvent e = true
  keyUp : ∀ e ∈ s.orderedKeyUpEvents, d.testEvent e = true

variable {d : FromEventDefinition} {e : EventDefinition}

/-- A rule that maps from one event asks for that event. -/
theorem testEvent_single (hd : d.eventDefinitions = [e]) (event : Event) :
    d.testEvent event = e.testEvent event := by
  simp [testEvent, hd]

theorem allFromEventsFound_of_matches (hd : d.eventDefinitions = [e]) {s : Scan}
    (h : Matches e s) : d.allFromEventsFound s.fromEvents = true := by
  simpa [allFromEventsFound, hd] using h.exists_

/-- Once the definition is matched, nothing ends the scan. -/
theorem Matches.step (hd : d.eventDefinitions = [e]) {s : Scan} (h : Matches e s)
    (entry : Entry) : ∃ s', s.step d entry = some s' ∧ Matches e s' := by
  have hfound := allFromEventsFound_of_matches hd h
  unfold Scan.step
  cases entry.eventType with
  | keyDown =>
      dsimp only
      rw [testEvent_single hd]
      split_ifs with htest hnew hskip
      · exact ⟨s, rfl, h⟩
      · refine ⟨_, rfl, ?_, fun fe hfe => ?_, fun x hx => ?_, h.keyUp⟩
        · obtain ⟨fe, hfe, hmatch⟩ := h.exists_
          exact ⟨fe, Finset.mem_insert_of_mem hfe, hmatch⟩
        · rcases Finset.mem_insert.mp hfe with rfl | hfe
          · exact htest
          · exact h.fromEvents fe hfe
        · rcases List.mem_append.mp hx with hx | hx
          · exact h.keyDown x hx
          · rw [List.mem_singleton.mp hx]
            exact htest
      · simp [hfound] at hskip
      · exact ⟨s, rfl, h⟩
  | keyUp =>
      dsimp only
      rw [hfound]
      split_ifs with hmem hnew
      · exact absurd hnew (by decide)
      · exact ⟨s, rfl, h⟩
      · refine ⟨_, rfl, h.exists_, h.fromEvents, h.keyDown, fun x hx => ?_⟩
        rcases List.mem_append.mp hx with hx | hx
        · exact h.keyUp x hx
        · rw [List.mem_singleton.mp hx]
          exact h.fromEvents _ hmem
      · exact ⟨s, rfl, h⟩
  | single => exact ⟨s, rfl, h⟩

/-- The scan goes through, since further events are not waited for. -/
theorem Matches.foldlM (hd : d.eventDefinitions = [e]) {s : Scan} (h : Matches e s)
    (entries : List Entry) : ∃ s', entries.foldlM (Scan.step d) s = some s' ∧ Matches e s' := by
  induction entries generalizing s with
  | nil => exact ⟨s, rfl, h⟩
  | cons entry entries ih =>
      obtain ⟨s₁, hs₁, h₁⟩ := h.step hd entry
      obtain ⟨s₂, hs₂, h₂⟩ := ih h₁
      exact ⟨s₂, by rw [List.foldlM_cons, hs₁]; exact hs₂, h₂⟩

/-- One event is in any key order. -/
theorem testKeyOrder_single (hd : d.eventDefinitions = [e]) {events : List Event}
    (h : ∀ x ∈ events, e.testEvent x = true) (keyOrder : KeyOrder) :
    testKeyOrder events keyOrder d.eventDefinitions = true := by
  rw [hd]
  cases events with
  | nil => cases keyOrder <;> rfl
  | cons x xs =>
      have hx := h x List.mem_cons_self
      cases keyOrder <;> simp [testKeyOrder, hx]

/-- **A single event definition is detected at once.** -/
theorem detect_single (hd : d.eventDefinitions = [e]) {front : Entry}
    (valid : front.validity = .valid) (down : front.eventType = .keyDown)
    (target : d.testEvent front.event = true) {endTimeStamp : AbsoluteTime}
    (hle : front.eventTimeStamp.timeStamp ≤ endTimeStamp) (rest : List Entry) :
    ∃ fromEvents, d.detect endTimeStamp (front :: rest) = some (fromEvents, false) ∧
      d.allFromEventsFound fromEvents = true := by
  have htest : e.testEvent front.event = true := (testEvent_single hd front.event).symm.trans target
  have hread : window endTimeStamp (front :: rest) = front :: window endTimeStamp rest := by
    simp [window, valid, hle]
  obtain ⟨s, hs, hmatches⟩ : ∃ s, (window endTimeStamp (front :: rest)).foldlM (Scan.step d) {} =
      some s ∧ Matches e s := by
    rw [hread, List.foldlM_cons]
    have hfirst : Scan.step d {} front = some
        { fromEvents := {front.fromEvent}, orderedKeyDownEvents := [front.event] } := by
      simp [Scan.step, down, target]
    rw [hfirst]
    refine Matches.foldlM hd ⟨⟨front.fromEvent, Finset.mem_singleton_self _, htest⟩, ?_, ?_, ?_⟩ _
    · intro fe hfe
      rw [Finset.mem_singleton.mp hfe]
      exact htest
    · intro x hx
      rw [List.mem_singleton.mp hx]
      exact htest
    · simp
  refine ⟨s.fromEvents, ?_, allFromEventsFound_of_matches hd hmatches⟩
  have hne : s.fromEvents ≠ ∅ := by
    obtain ⟨fe, hfe, -⟩ := hmatches.exists_
    exact Finset.ne_empty_of_mem hfe
  unfold detect
  rw [scan_eq_foldlM, hs]
  dsimp only
  rw [if_neg hne, testKeyOrder_single hd hmatches.keyDown, testKeyOrder_single hd hmatches.keyUp,
    hd]
  simp

end FromEventDefinition

namespace Basic

/-! ### What is queued behind the front entry -/

/-- The manipulator maps from a single event definition. -/
def SingleFrom (b : Basic) : Prop := ∃ e, b.definition.from_.eventDefinitions = [e]

section Collects

variable [MachTimebase]

theorem endTimeStamp_le (b : Basic) (front : Entry) :
    front.eventTimeStamp.timeStamp ≤ b.endTimeStamp front :=
  le_add_of_nonneg_right (simultaneousThreshold_nonneg b.definition)

/-- With nothing behind the front entry, nothing else is collected. -/
theorem eq_of_collects_nil {b : Basic} {front e : Entry} (h : b.Collects front [] e) :
    e = front := by
  have hmem := List.mem_of_mem_filter ((List.takeWhile_sublist _).subset h.mem)
  exact List.mem_singleton.mp hmem

/-- A capture that collects its front entry only. -/
theorem detect_eq_of_collects {b : Basic} (hsingle : b.SingleFrom) {front : Entry}
    (valid : front.validity = .valid) (down : front.eventType = .keyDown)
    (target : b.definition.from_.testEvent front.event = true) {rest : List Entry}
    (honly : ∀ e, b.Collects front rest e → e.fromEvent = front.fromEvent) :
    b.definition.from_.detect (b.endTimeStamp front) (front :: rest) =
      some ({front.fromEvent}, false) := by
  obtain ⟨d, hd⟩ := hsingle
  obtain ⟨fromEvents, hdetect, -⟩ := FromEventDefinition.detect_single hd valid down target
    (b.endTimeStamp_le front) rest
  have hfrom : fromEvents = {front.fromEvent} := by
    ext fe
    rw [mem_detect_iff hdetect, Finset.mem_singleton]
    constructor
    · rintro ⟨e, he, rfl⟩
      exact honly e he
    · rintro rfl
      exact ⟨front, collects_front valid down target rest, rfl⟩
  rw [hdetect, hfrom]

end Collects

variable [Exprtk] [SystemClock] [MachTimebase]

/-- Such a rule detects its event without waiting. -/
theorem manipulateDetected_single {b : Basic} (hsingle : b.SingleFrom) {front : Entry}
    (valid : front.validity = .valid) (down : front.eventType = .keyDown)
    (target : b.definition.from_.testEvent front.event = true) (rest : List Entry)
    (fromMandatoryModifiers : List ModifierFlag) (output : Output) (now : AbsoluteTime) :
    ∃ fromEvents, b.definition.from_.detect (b.endTimeStamp front) (front :: rest) =
        some (fromEvents, false) ∧
      b.manipulateDetected front rest fromMandatoryModifiers output now =
        b.capture front fromEvents fromMandatoryModifiers output := by
  obtain ⟨d, hd⟩ := hsingle
  obtain ⟨fromEvents, hdetect, hfound⟩ := FromEventDefinition.detect_single hd valid down target
    (b.endTimeStamp_le front) rest
  refine ⟨fromEvents, hdetect, ?_⟩
  rw [endTimeStamp] at hdetect
  unfold manipulateDetected
  dsimp only
  rw [hdetect]
  simp [hfound]

/-- **What is queued behind the front entry** does not matter to a manipulator from a single event
definition, unless a capture collects it. -/
theorem manipulate_rest {b : Basic} (hsingle : b.SingleFrom) (front : Entry) (rest : List Entry)
    (output : Output) (now now' : AbsoluteTime)
    (honly : (b.manipulate front rest output now).result = .manipulated →
      front.eventType = .keyDown → ∀ e, b.Collects front rest e → e.fromEvent = front.fromEvent) :
    b.manipulate front rest output now = b.manipulate front [] output now' ∧
      (b.manipulate front rest output now).result ≠ .needsWaitUntilTimeStamp ∧
      ((b.manipulate front rest output now).result = .passed →
        (b.manipulate front rest output now).front = front) := by
  have hobserve := b.sameHeld_observe front output
  unfold manipulate at honly ⊢
  generalize b.observe front output = observed at hobserve honly ⊢
  obtain ⟨b₁, output₁⟩ := observed
  dsimp only at hobserve honly ⊢
  have hsingle₁ : b₁.SingleFrom := by
    rw [SingleFrom, hobserve.definition]
    exact hsingle
  by_cases htarget : (decide (front.validity = .invalid) ||
      !b₁.definition.from_.testEvent front.event) = true
  · rw [if_pos htarget, if_pos htarget]
    exact ⟨rfl, by simp, fun _ => rfl⟩
  · rw [if_neg htarget] at honly
    rw [if_neg htarget, if_neg htarget]
    have hvalid : front.validity = .valid := by
      cases hv : front.validity with
      | valid => rfl
      | invalid => simp [hv] at htarget
    have htest : b₁.definition.from_.testEvent front.event = true := by simpa [hvalid] using htarget
    cases htype : front.eventType with
    | single => exact ⟨rfl, by simp, fun _ => rfl⟩
    | keyUp =>
        refine ⟨rfl, ?_⟩
        dsimp only
        unfold manipulateKeyUp
        split
        · exact ⟨by simp, fun _ => rfl⟩
        · exact ⟨by simp [finish], fun h => by simp [finish] at h⟩
    | keyDown =>
        simp only [htype] at honly
        dsimp only
        unfold manipulateKeyDown at honly ⊢
        split_ifs at honly ⊢
        · exact ⟨rfl, by simp, fun _ => rfl⟩
        · split at honly
          · exact ⟨rfl, by simp, fun _ => rfl⟩
          · dsimp only at honly ⊢
            split_ifs at honly ⊢
            · exact ⟨rfl, by simp, fun _ => rfl⟩
            · rename_i fromMandatoryModifiers _ _
              obtain ⟨fromEvents, hdetect, hcapture⟩ := manipulateDetected_single hsingle₁ hvalid
                htype htest rest fromMandatoryModifiers _ now
              obtain ⟨fromEvents', hdetect', hcapture'⟩ := manipulateDetected_single hsingle₁ hvalid
                htype htest [] fromMandatoryModifiers _ now'
              rw [hcapture] at honly ⊢
              rw [hcapture']
              have hcollects : ∀ e, b₁.Collects front rest e → e.fromEvent = front.fromEvent := by
                intro e he
                refine honly rfl trivial e ?_
                rwa [Collects, endTimeStamp, hobserve.definition] at he
              have hdetect₁ := detect_eq_of_collects hsingle₁ hvalid htype htest hcollects
              have hdetect₂ := detect_eq_of_collects hsingle₁ hvalid htype htest
                fun e (he : b₁.Collects front [] e) => by rw [eq_of_collects_nil he]
              obtain rfl : fromEvents = {front.fromEvent} := by
                simpa using hdetect.symm.trans hdetect₁
              obtain rfl : fromEvents' = {front.fromEvent} := by
                simpa using hdetect'.symm.trans hdetect₂
              exact ⟨rfl, by simp [capture, finish], fun h => by simp [capture, finish] at h⟩

/-- An entry that has been consumed is only observed. -/
theorem manipulate_of_invalid (b : Basic) {front : Entry} (hfront : front.validity = .invalid)
    (rest : List Entry) (output : Output) (now : AbsoluteTime) :
    b.manipulate front rest output now =
      ⟨.passed, (b.observe front output).1, front, (b.observe front output).2⟩ := by
  unfold manipulate
  generalize b.observe front output = observed
  simp [hfront]

end Basic

namespace Slot

/-- Every manipulator maps from a single event definition. -/
def SingleFrom (slots : List Slot) : Prop := ∀ slot ∈ slots, slot.basic.SingleFrom

/-- Manipulators that map from a single event do so in later states. -/
theorem SingleFrom.of_same {slots slots' : List Slot} (h : List.Forall₂ Same slots slots')
    (hsingle : SingleFrom slots) : SingleFrom slots' := by
  induction h with
  | nil => exact hsingle
  | cons hsame _ ih =>
      intro slot hslot
      rcases List.mem_cons.mp hslot with rfl | hslot
      · rw [Basic.SingleFrom, hsame.definition]
        exact hsingle _ List.mem_cons_self
      · exact ih (fun s hs => hsingle s (List.mem_cons_of_mem _ hs)) slot hslot

variable [Exprtk] [SystemClock] [MachTimebase]

/-- The loop after the front entry has been consumed. -/
theorem manipulateAll_rest_of_invalid (rest : List Entry) (now now' : AbsoluteTime)
    (slots : List Slot) {front : Entry} (hfront : front.validity = .invalid) (output : Output) :
    manipulateAll rest now slots front output = manipulateAll [] now' slots front output ∧
      (manipulateAll rest now slots front output).waits = false := by
  induction slots generalizing output with
  | nil => exact ⟨rfl, rfl⟩
  | cons slot slots ih =>
      obtain ⟨heq, hwaits⟩ := ih (slot.basic.observe front output).2
      unfold manipulateAll
      dsimp only
      rw [Basic.manipulate_of_invalid _ hfront, Basic.manipulate_of_invalid _ hfront]
      dsimp only
      rw [if_neg (by decide), if_neg (by decide), heq]
      exact ⟨rfl, heq ▸ hwaits⟩

/-- **The loop over manipulators from single event definitions** does not depend on what is queued
behind the front entry, unless the capture collects it. -/
theorem manipulateAll_rest {slots : List Slot} (hwf : WellFormed slots)
    (hsingle : SingleFrom slots) (front : Entry) (rest : List Entry) (output : Output)
    (now now' : AbsoluteTime)
    (honly : front.eventType = .keyDown → ∀ slot, captor rest now slots front output = some slot →
      ∀ e, slot.basic.Collects front rest e → e.fromEvent = front.fromEvent) :
    manipulateAll rest now slots front output = manipulateAll [] now' slots front output ∧
      (manipulateAll rest now slots front output).waits = false := by
  induction slots generalizing output with
  | nil => exact ⟨rfl, rfl⟩
  | cons slot slots ih =>
      have hb := hwf slot List.mem_cons_self
      unfold captor at honly
      dsimp only at honly
      obtain ⟨hmanipulate, hnowait, hfront⟩ := Basic.manipulate_rest
        (hsingle slot List.mem_cons_self) front rest output now now' fun hresult hdown =>
          honly hdown slot (by rw [hresult])
      unfold manipulateAll
      dsimp only
      rw [← hmanipulate, if_neg hnowait, if_neg hnowait]
      cases hresult : (slot.basic.manipulate front rest output now).result with
      | needsWaitUntilTimeStamp => exact absurd hresult hnowait
      | passed =>
          rw [hfront hresult]
          simp only [hresult, hfront hresult] at honly
          obtain ⟨heq, hwaits⟩ := ih (fun s hs => hwf s (List.mem_cons_of_mem _ hs))
            (fun s hs => hsingle s (List.mem_cons_of_mem _ hs)) _ honly
          rw [heq]
          exact ⟨rfl, heq ▸ hwaits⟩
      | manipulated =>
          have hinvalid : (slot.basic.manipulate front rest output now).front.validity =
              .invalid := by
            cases Basic.manipulate_spec hb front rest output now with
            | passed result => exact absurd (hresult.symm.trans result) (by decide)
            | waits result => exact absurd result hnowait
            | captured _ _ consumed =>
                obtain ⟨d, hd⟩ := consumed
                rw [hd]
            | released _ consumed =>
                obtain ⟨d, hd⟩ := consumed
                rw [hd]
          obtain ⟨heq, hwaits⟩ := manipulateAll_rest_of_invalid rest now now' slots hinvalid
            (slot.basic.manipulate front rest output now).output
          rw [heq]
          exact ⟨rfl, heq ▸ hwaits⟩

end Slot

namespace Connection

variable [Exprtk] [SystemClock] [MachTimebase]

/-! ### One step -/

/-- If the step captures the front entry, the capture collects nothing else. -/
def CollectsFrontOnly (c : Connection) (i : Input) : Prop :=
  ∀ now reorder, i = .manipulate now reorder →
    ∀ front rest slot, c.Captures now front rest slot →
      ∀ e, slot.basic.Collects front rest e → e.fromEvent = front.fromEvent

/-- Processing the front entry, with and without the entries behind it. -/
theorem manipulate_rest {c c' : Connection} (hwf : c.WellFormed)
    (hsingle : Slot.SingleFrom c.manager.manipulators) {front : Entry} {rest : List Entry}
    (hevents : c.input.events = front :: rest) (hevents' : c'.input.events = [front])
    (hmanager : c'.manager = c.manager) (houtput : c'.output = c.output)
    (hevent : ∃ e, front.event = .momentarySwitchEvent e) (now now' : AbsoluteTime)
    (hguard : c.CollectsFrontOnly (.manipulate now false)) :
    (c.manipulate now false).manager = (c'.manipulate now' false).manager ∧
      (c.manipulate now false).output = (c'.manipulate now' false).output ∧
      (c.manipulate now false).input = c.input.eraseFrontEvent ∧
      (c'.manipulate now' false).input = c'.input.eraseFrontEvent ∧
      Slot.SingleFrom (c.manipulate now false).manager.manipulators := by
  obtain ⟨e, he⟩ := hevent
  have hfront (c : Connection) (rest : List Entry) (now : AbsoluteTime) :
      c.handleFront front rest now = c.manipulateFront front rest now := by
    simp only [handleFront, he]
  have hsame : c.manipulateFront front rest now = c'.manipulateFront front [] now' ∧
      (c.manipulateFront front rest now).waits = false := by
    unfold manipulateFront
    rw [hmanager, houtput]
    by_cases hskip : (decide (front.validity = .valid) && c.manager.alreadyManipulated front) = true
    · rw [if_pos hskip, if_pos hskip]
      exact ⟨rfl, rfl⟩
    · rw [if_neg hskip, if_neg hskip]
      obtain ⟨heq, hwaits⟩ := Slot.manipulateAll_rest hwf hsingle front rest c.output now now'
        fun hdown slot hcaptor e he => by
          have hvalid : front.validity = .valid := by
            have hspec := Slot.manipulateAll_spec rest now hwf front c.output
            rw [hcaptor] at hspec
            cases hspec with
            | passed _ _ _ _ none_ => cases none_ hdown
            | captured _ _ _ _ _ valid => exact valid
            | released _ _ _ up => exact absurd (hdown.symm.trans up) (by decide)
          exact hguard now false rfl front rest slot
            ⟨hevents, hdown, by simpa [hvalid] using hskip, hcaptor⟩ e he
      dsimp only
      rw [← heq]
      exact ⟨rfl, hwaits⟩
  obtain ⟨heq, hwaits⟩ := hsame
  have hnot : ¬ (c.manipulateFront front rest now).waits = true := by
    rw [hwaits]
    decide
  have hslots : Slot.SingleFrom (c.manipulateFront front rest now).manager.manipulators := by
    unfold manipulateFront
    split_ifs
    · exact hsingle
    · exact hsingle.of_same (Slot.same_manipulateAll rest now hwf front c.output)
  unfold manipulate
  rw [hevents, hevents']
  dsimp only
  rw [hfront, hfront, ← heq, if_neg hnot, if_neg hnot]
  exact ⟨rfl, rfl, rfl, rfl, hslots⟩

/-- A momentary switch arrives. -/
theorem step_arrive {c : Connection} {e : Entry} (hevent : ∃ s, e.event = .momentarySwitchEvent s)
    (hdelay : c.input.timeStampDelay = 0) :
    c.step (.arrive e) =
      { c with
        input :=
          { (c.step (.arrive e)).input with
            events := c.input.events ++ [e]
            timeStampDelay := 0 } } := by
  obtain ⟨s, hs⟩ := hevent
  have hstored : c.input.delay e = e := by
    simp [Queue.delay, hdelay]
  simp [step, Output.emplaceBackEntry, hstored, hdelay, Queue.updateManipulatorEnvironment, hs]

/-! ### Runs -/

/-- All entries are queued, and then processed.  An entry comes with the clock at its processing,
in this run and in the other one. -/
def queued (es : List (Entry × AbsoluteTime × AbsoluteTime)) : List Input :=
  (es.map fun p => .arrive p.1) ++ es.map fun p => .manipulate p.2.1 false

/-- Every entry is processed before the next one is queued. -/
def oneAtATime (es : List (Entry × AbsoluteTime × AbsoluteTime)) : List Input :=
  es.flatMap fun p => [.arrive p.1, .manipulate p.2.2 false]

variable {es : List (Entry × AbsoluteTime × AbsoluteTime)}

/-- Arrivals go to the end of the input queue, and to nothing else. -/
theorem run_arrive (hevents : ∀ p ∈ es, ∃ e, p.1.event = .momentarySwitchEvent e)
    {c : Connection} (hdelay : c.input.timeStampDelay = 0) :
    let c' := Machine.run step c (es.map fun p => .arrive p.1)
    c'.manager = c.manager ∧ c'.output = c.output ∧
      c'.input.events = c.input.events ++ es.map (·.1) := by
  induction es generalizing c with
  | nil => exact ⟨rfl, rfl, (List.append_nil _).symm⟩
  | cons p es ih =>
      have harrive := step_arrive (hevents p List.mem_cons_self) hdelay
      have hdelay' : (c.step (.arrive p.1)).input.timeStampDelay = 0 := by rw [harrive]
      obtain ⟨hmanager, houtput, hinput⟩ :=
        ih (fun p hp => hevents p (List.mem_cons_of_mem _ hp)) hdelay'
      rw [List.map_cons, Machine.run_cons]
      refine ⟨hmanager.trans ?_, houtput.trans ?_, hinput.trans ?_⟩ <;> rw [harrive]
      simp

/-- The two runs from a state in which all entries are queued and one in which none is. -/
theorem run_rest (hevents : ∀ p ∈ es, ∃ e, p.1.event = .momentarySwitchEvent e)
    {c c' : Connection} (hwf : c.WellFormed) (hsingle : Slot.SingleFrom c.manager.manipulators)
    (hmanager : c'.manager = c.manager) (houtput : c'.output = c.output)
    (hinput : c.input.events = es.map (·.1)) (hinput' : c'.input.events = [])
    (hdelay' : c'.input.timeStampDelay = 0)
    (hguard : Machine.Steps step CollectsFrontOnly c (es.map fun p => .manipulate p.2.1 false)) :
    (Machine.run step c (es.map fun p => .manipulate p.2.1 false)).output =
      (Machine.run step c' (oneAtATime es)).output := by
  induction es generalizing c c' with
  | nil => exact houtput.symm
  | cons p es ih =>
      have hevent := hevents p List.mem_cons_self
      have harrive := step_arrive hevent hdelay'
      have hfront : (c'.step (.arrive p.1)).input.events = [p.1] := by
        rw [harrive, hinput']
        rfl
      obtain ⟨hmanager₁, houtput₁, hinput₁, hinput₁', hsingle₁⟩ :=
        manipulate_rest hwf hsingle hinput hfront (by rw [harrive]; exact hmanager)
          (by rw [harrive]; exact houtput) hevent p.2.1 p.2.2 hguard.1
      refine ih (fun p hp => hevents p (List.mem_cons_of_mem _ hp))
        (wellFormed_step hwf (.manipulate p.2.1 false)) hsingle₁ hmanager₁.symm houtput₁.symm
        ?_ ?_ ?_
        hguard.2
      · change (c.manipulate p.2.1 false).input.events = _
        rw [hinput₁, Queue.eraseFrontEvent, hinput]
        rfl
      · change ((c'.step (.arrive p.1)).manipulate p.2.2 false).input.events = []
        rw [hinput₁', Queue.eraseFrontEvent, hfront]
        rfl
      · change ((c'.step (.arrive p.1)).manipulate p.2.2 false).input.timeStampDelay = 0
        rw [hinput₁', Queue.eraseFrontEvent, hfront]
        rfl

/-- **Batching independence** of rules from single event definitions, as long as no capture collects
a key_down that is queued behind its front entry. -/
theorem run_batching (definitions : List BasicDefinition)
    (hsingle : ∀ d ∈ definitions, ∃ e, d.from_.eventDefinitions = [e]) (output : Output)
    (es : List (Entry × AbsoluteTime × AbsoluteTime))
    (hevents : ∀ p ∈ es, ∃ e, p.1.event = .momentarySwitchEvent e)
    (hguard : Machine.Steps step CollectsFrontOnly (initial definitions output) (queued es)) :
    (Machine.run step (initial definitions output) (queued es)).output =
      (Machine.run step (initial definitions output) (oneAtATime es)).output := by
  rw [queued, Machine.steps_append] at hguard
  obtain ⟨hmanager, houtput, hinput⟩ := run_arrive hevents
    (c := initial definitions output) rfl
  have hfresh : Slot.SingleFrom (initial definitions output).manager.manipulators := by
    intro slot hslot
    obtain ⟨d, hd, heq⟩ := exists_of_mem_initial hslot
    rw [Basic.SingleFrom, heq]
    exact hsingle d hd
  rw [queued, Machine.run_append]
  exact run_rest hevents (wellFormed_run definitions output _) (by rw [hmanager]; exact hfresh)
    hmanager.symm houtput.symm hinput rfl rfl hguard.2

/-! ### Rules from one key -/

/-- The definition is from one key, and not from any key of a type. -/
def FromOneKey (d : BasicDefinition) : Prop :=
  ∃ e, d.from_.eventDefinitions = [.momentarySwitchEvent e]

/-- All manipulators are from one key. -/
def AllFromOneKey (c : Connection) : Prop :=
  ∀ slot ∈ c.manager.manipulators, FromOneKey slot.basic.definition

/-- A capture by a manipulator from one key collects its front entry only. -/
theorem AllFromOneKey.collectsFrontOnly {c : Connection} (hwf : c.WellFormed)
    (h : c.AllFromOneKey) (i : Input) : c.CollectsFrontOnly i := by
  rintro now reorder - front rest slot hc e ⟨before, after, hread, hdown, htest, hfirst⟩
  have hspec := Slot.manipulateAll_spec rest now hwf front c.output
  rw [hc.captor] at hspec
  cases hspec with
  | passed _ _ _ _ none_ => cases none_ hc.down
  | released _ _ _ up => exact absurd (hc.down.symm.trans up) (by decide)
  | captured _ _ _ _ _ valid _ some_ mem target =>
      obtain rfl := Option.some.inj some_
      obtain ⟨key, hkey⟩ := h slot mem
      have hmatch {event : Event} (ht : slot.basic.definition.from_.testEvent event = true) :
          event = .momentarySwitchEvent key := by
        obtain ⟨s, rfl⟩ := FromEventDefinition.exists_of_testEvent ht
        rw [FromEventDefinition.testEvent_single hkey] at ht
        simpa [EventDefinition.testEvent] using ht
      have hsame : front.event = e.event := (hmatch target).trans (hmatch htest).symm
      have hwindow : window (slot.basic.endTimeStamp front) (front :: rest) =
          front :: window (slot.basic.endTimeStamp front) rest := by
        simp [window, valid, slot.basic.endTimeStamp_le front]
      rw [hwindow] at hread
      cases before with
      | nil =>
          obtain ⟨rfl, -⟩ := List.cons_eq_cons.mp hread
          rfl
      | cons first before =>
          obtain ⟨rfl, -⟩ := List.cons_eq_cons.mp hread
          exact absurd hsame (hfirst _ List.mem_cons_self hc.down)

/-- Rules of one key never collect beyond the front entry. -/
theorem steps_collectsFrontOnly {definitions : List BasicDefinition}
    (hkeys : ∀ d ∈ definitions, FromOneKey d) (output : Output)
    (es : List (Entry × AbsoluteTime × AbsoluteTime)) :
    Machine.Steps step CollectsFrontOnly (initial definitions output) (queued es) := by
  have hkeep {c : Connection} (hwf : c.WellFormed) (h : c.AllFromOneKey) {i : Input}
      (hnext : (c.step i).manager.nextSerial = c.manager.nextSerial) :
      (c.step i).AllFromOneKey := by
    intro slot' hslot'
    obtain ⟨slot, hslot, hevolves⟩ := (evolution_step hwf i).exists_of_nextSerial_eq hnext hslot'
    rw [hevolves.definition]
    exact h slot hslot
  have hsteps (is : List Input) (his : ∀ i ∈ is, (∃ e, i = .arrive e) ∨
      ∃ now, i = .manipulate now false) (c : Connection) (hwf : c.WellFormed)
      (h : c.AllFromOneKey) : Machine.Steps step CollectsFrontOnly c is := by
    induction is generalizing c with
    | nil => exact trivial
    | cons i is ih =>
        refine ⟨h.collectsFrontOnly hwf i, ih (fun i hi => his i (List.mem_cons_of_mem _ hi)) _
          (wellFormed_step hwf i) (hkeep hwf h ?_)⟩
        rcases his i List.mem_cons_self with ⟨e, rfl⟩ | ⟨now, rfl⟩
        · rfl
        · exact nextSerial_manipulate hwf now false
  refine hsteps _ (fun i hi => ?_) _ (initial_spec definitions output).1 fun slot hslot => ?_
  · rcases List.mem_append.mp hi with hi | hi
    · obtain ⟨p, -, rfl⟩ := List.mem_map.mp hi
      exact Or.inl ⟨p.1, rfl⟩
    · obtain ⟨p, -, rfl⟩ := List.mem_map.mp hi
      exact Or.inr ⟨p.2.1, rfl⟩
  · obtain ⟨d, hd, heq⟩ := exists_of_mem_initial hslot
    rw [heq]
    exact hkeys d hd

end Connection

namespace Connection

/-- Two keys are pressed together while a manipulator maps from the first one. -/
theorem run_batching_mapped :
    ∃ (_ : Exprtk) (_ : SystemClock) (_ : MachTimebase),
      (Machine.run step (initial [simultaneous [4] false] ⟨{}, World.initial⟩)
        (queued [(keyEntry 4 .keyDown 0, 1, 0), (keyEntry 5 .keyDown 1, 1, 1)])).output =
      (Machine.run step (initial [simultaneous [4] false] ⟨{}, World.initial⟩)
        (oneAtATime [(keyEntry 4 .keyDown 0, 1, 0), (keyEntry 5 .keyDown 1, 1, 1)])).output := by
  have hkeys : ∀ d ∈ [simultaneous [4] false], FromOneKey d := by
    intro d hd
    rw [List.mem_singleton.mp hd]
    exact ⟨_, rfl⟩
  refine ⟨.singleVariable, ⟨fun _ => 0⟩, ⟨1, 1⟩, ?_⟩
  let _ : Exprtk := .singleVariable
  let _ : SystemClock := ⟨fun _ => 0⟩
  let _ : MachTimebase := ⟨1, 1⟩
  refine run_batching [simultaneous [4] false] (fun d hd => ?_) ⟨{}, World.initial⟩ _ ?_
    (steps_collectsFrontOnly hkeys _ _)
  · obtain ⟨e, he⟩ := hkeys d hd
    exact ⟨_, he⟩
  · intro p hp
    rcases List.mem_cons.mp hp with rfl | hp
    · exact ⟨_, rfl⟩
    · rw [List.mem_singleton.mp hp]
      exact ⟨_, rfl⟩

/-! ### Any key -/

/-- A manipulator from any key to `c`. -/
def anyKey : BasicDefinition where
  from_ := { eventDefinitions := [.any .keyCode] }
  to_ := [{ eventDefinition := .momentarySwitchEvent ⟨⟨UsagePage.keyboardOrKeypad, 6⟩⟩ }]

/-- The keys `a` and `b` are pressed and released within the threshold. -/
def rollOver : List (Entry × AbsoluteTime × AbsoluteTime) :=
  [(keyEntry 4 .keyDown 0, 3, 0), (keyEntry 5 .keyDown 1, 3, 1), (keyEntry 4 .keyUp 2, 3, 2),
    (keyEntry 5 .keyUp 3, 3, 3)]

/-- When both keys are queued, the press of `a` takes `b` along, and `c` is posted once. -/
theorem not_batching_rollOver :
    ∃ (_ : Exprtk) (_ : SystemClock) (_ : MachTimebase),
      ¬ ∀ (definitions : List BasicDefinition) (output : Output)
          (es : List (Entry × AbsoluteTime × AbsoluteTime)),
        (∀ d ∈ definitions, (∃ e, d.from_.eventDefinitions = [e]) ∧ d.toIfHeldDown = none ∧
          d.toDelayedAction = none) →
        (∀ p ∈ es, ∃ e, p.1.event = .momentarySwitchEvent e) → WellFormedInput (queued es) →
        (Machine.run step (initial definitions output) (queued es)).output.queue.events =
          (Machine.run step (initial definitions output) (oneAtATime es)).output.queue.events := by
  refine ⟨.singleVariable, ⟨fun _ => 0⟩, ⟨1, 1⟩, fun h => ?_⟩
  have hevents := h [anyKey] (@Output.mk .singleVariable {} (@World.initial .singleVariable))
    rollOver (by simp [anyKey]) (by simp [rollOver, keyEntry]) ⟨by decide, by decide⟩
  have hlength := congrArg List.length hevents
  revert hlength
  decide

end Connection

end Karabiner
