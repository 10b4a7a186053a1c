import Karabiner.Manipulator.Basic.Presses

/-!
# What simultaneous detection means

The scan of the input queue decides in one loop whether the keys of a rule are pressed together.
Here is what it decides, in terms of the entries it reads (`window`): a key_down of another key or
an early key_up breaks a match that is not complete, the counted key_downs have to come in the
required order, and the match is complete when every definition has been pressed.

* `FromEventDefinition.foldlM_step_spec` — the invariant of the scan.
* `Basic.manipulate_detection` — **the result of `manipulate`** for a key_down, from that meaning.
-/

namespace Karabiner

namespace FromEventDefinition

/-! ### Violations -/

/-- Every definition has been matched by a key_down. -/
def IsMatched (d : FromEventDefinition) (read : List Entry) : Prop :=
  ∀ e ∈ d.eventDefinitions, ∃ entry ∈ read,
    entry.eventType = .keyDown ∧ e.testEvent entry.event = true

/-- An entry that breaks an incomplete match: a key_down of another key, or a key_up of a key whose
key_down has been counted. -/
def Breaks (d : FromEventDefinition) (before : List Entry) (e : Entry) : Prop :=
  e.eventType = .keyDown ∧ d.testEvent e.event = false ∧
      d.simultaneousOptions.detectKeyDownUninterruptedly = false ∨
    e.eventType = .keyUp ∧ ∃ e', IsCollected d before e' ∧ e'.fromEvent = e.fromEvent

/-- The match has been broken before it was complete. -/
def IsBroken (d : FromEventDefinition) (read : List Entry) : Prop :=
  ∃ before e after, read = before ++ e :: after ∧ ¬ d.IsMatched before ∧ d.Breaks before e

/-- The events of the counted key_downs, in order: the first one of each event counts. -/
def countedEvents (d : FromEventDefinition) (read : List Entry) : List Event :=
  ((read.filter fun e => e.eventType = .keyDown && d.testEvent e.event).map (·.event)).eraseDups

/-- The events come in the order that a `key_order` asks for. -/
def InOrder (keyOrder : KeyOrder) (switches : List MomentarySwitchEvent) (events : List Event) :
    Prop :=
  match keyOrder with
  | .insensitive => True
  | .strict => events <+: switches.map .momentarySwitchEvent
  | .strictInverse => events <+: switches.reverse.map .momentarySwitchEvent

/-- A violation of a rule from the switches among the entries read. -/
def Violation (d : FromEventDefinition) (switches : List MomentarySwitchEvent)
    (read : List Entry) : Prop :=
  d.IsBroken read ∨
    ¬ InOrder d.simultaneousOptions.keyDownOrder switches (d.countedEvents read)

/-! ### The scan -/

variable {d : FromEventDefinition} {read : List Entry}

theorem isBroken_concat (entry : Entry) :
    d.IsBroken (read ++ [entry]) ↔
      d.IsBroken read ∨ ¬ d.IsMatched read ∧ d.Breaks read entry := by
  constructor
  · rintro ⟨before, e, after, heq, hmatched, hbreaks⟩
    cases after using List.reverseRecOn with
    | nil =>
        obtain ⟨rfl, he⟩ := List.append_inj' heq rfl
        obtain rfl : entry = e := by simpa using he
        exact Or.inr ⟨hmatched, hbreaks⟩
    | append_singleton after last =>
        rw [← List.cons_append, ← List.append_assoc] at heq
        obtain ⟨rfl, -⟩ := List.append_inj' heq rfl
        exact Or.inl ⟨before, e, after, rfl, hmatched, hbreaks⟩
  · rintro (⟨before, e, after, rfl, hmatched, hbreaks⟩ | ⟨hmatched, hbreaks⟩)
    · exact ⟨before, e, after ++ [entry], by simp, hmatched, hbreaks⟩
    · exact ⟨read, entry, [], rfl, hmatched, hbreaks⟩

theorem eraseDups_concat (events : List Event) (event : Event) :
    (events ++ [event]).eraseDups =
      if event ∈ events.eraseDups then events.eraseDups else events.eraseDups ++ [event] := by
  rw [List.eraseDups_append]
  by_cases h : event ∈ events <;> simp [List.removeAll, List.eraseDups_cons, h]

theorem nodup_eraseDups (events : List Event) : events.eraseDups.Nodup := by
  induction events using List.reverseRecOn with
  | nil => exact List.nodup_nil
  | append_singleton events event ih =>
      rw [eraseDups_concat]
      split_ifs with h
      · exact ih
      · rw [← List.concat_eq_append]
        exact ih.concat h

/-- An event counts if one of its key_downs has been read. -/
theorem mem_countedEvents {event : Event} :
    event ∈ d.countedEvents read ↔
      d.testEvent event = true ∧ ∃ e ∈ read, e.eventType = .keyDown ∧ e.event = event := by
  rw [countedEvents, List.mem_eraseDups, List.mem_map]
  constructor
  · rintro ⟨e, he, rfl⟩
    obtain ⟨hread, htest⟩ := List.mem_filter.mp he
    rw [Bool.and_eq_true, decide_eq_true_eq] at htest
    exact ⟨htest.2, e, hread, htest.1, rfl⟩
  · rintro ⟨htest, e, hread, hdown, rfl⟩
    exact ⟨e, List.mem_filter.mpr ⟨hread, by simp [hdown, htest]⟩, rfl⟩

theorem countedEvents_concat (entry : Entry) :
    d.countedEvents (read ++ [entry]) =
      if entry.eventType = .keyDown ∧ d.testEvent entry.event = true ∧
          entry.event ∉ d.countedEvents read then d.countedEvents read ++ [entry.event]
      else d.countedEvents read := by
  by_cases hcounts : entry.eventType = .keyDown ∧ d.testEvent entry.event = true
  · have hfilter : [entry].filter (fun e => e.eventType = .keyDown && d.testEvent e.event) =
        [entry] := by simp [hcounts]
    rw [countedEvents, List.filter_append, List.map_append, hfilter, List.map_singleton,
      eraseDups_concat, ← countedEvents]
    by_cases hmem : entry.event ∈ d.countedEvents read
    · rw [if_pos hmem, if_neg fun h => h.2.2 hmem]
    · rw [if_neg hmem, if_pos ⟨hcounts.1, hcounts.2, hmem⟩]
  · have hfilter :
        [entry].filter (fun e => e.eventType = .keyDown && d.testEvent e.event) = [] := by
      simpa using hcounts
    rw [countedEvents, List.filter_append, hfilter, List.append_nil, ← countedEvents,
      if_neg fun h => hcounts ⟨h.1, h.2.1⟩]

/-- `all_from_events_found` of what the scan has found. -/
theorem allFromEventsFound_iff {s : Scan} (h : read.foldlM (Scan.step d) {} = some s) :
    d.allFromEventsFound s.fromEvents = true ↔ d.IsMatched read := by
  simp only [allFromEventsFound, List.all_eq_true, decide_eq_true_eq, IsMatched]
  refine forall₂_congr fun e he => ⟨?_, ?_⟩
  · rintro ⟨fe, hfe, htest⟩
    obtain ⟨entry, hentry, rfl⟩ := (Scan.mem_fromEvents_iff h fe).mp hfe
    obtain ⟨before, after, rfl, hdown, -⟩ := hentry
    exact ⟨entry, by simp, hdown, htest⟩
  · rintro ⟨entry, hentry, hdown, htest⟩
    obtain ⟨entry', hcollected, hevent⟩ := IsCollected.exists_of_mem hentry hdown
      (List.any_eq_true.mpr ⟨e, he, htest⟩)
    refine ⟨entry'.fromEvent, (Scan.mem_fromEvents_iff h _).mpr ⟨entry', hcollected, rfl⟩, ?_⟩
    rw [← htest, ← hevent]
    rfl

/-- **The invariant of the scan**: it ends early at a broken match, and else it has collected the
counted events. -/
theorem foldlM_step_spec (d : FromEventDefinition) (read : List Entry) :
    match read.foldlM (Scan.step d) {} with
    | none => d.IsBroken read
    | some s => ¬ d.IsBroken read ∧ s.orderedKeyDownEvents = d.countedEvents read := by
  induction read using List.reverseRecOn with
  | nil =>
      refine ⟨?_, rfl⟩
      rintro ⟨before, e, after, heq, -⟩
      simp at heq
  | append_singleton read entry ih =>
      rw [List.foldlM_append, isBroken_concat, countedEvents_concat]
      cases hs : read.foldlM (Scan.step d) {} with
      | none =>
          rw [hs] at ih
          exact Or.inl ih
      | some s =>
          rw [hs] at ih
          obtain ⟨hbroken, hcounted⟩ := ih
          have hfound := allFromEventsFound_iff hs
          have hmem := Scan.mem_fromEvents_iff hs
          have hseen : (∃ fe ∈ s.fromEvents, fe.event = entry.event) ↔
              entry.event ∈ d.countedEvents read := by
            rw [mem_countedEvents]
            constructor
            · rintro ⟨fe, hfe, hevent⟩
              obtain ⟨e, ⟨before, after, rfl, hdown, htest, -⟩, rfl⟩ := (hmem fe).mp hfe
              exact ⟨hevent ▸ htest, e, by simp, hdown, hevent⟩
            · rintro ⟨htest, e, he, hdown, hevent⟩
              obtain ⟨e', hcollected, hevent'⟩ :=
                IsCollected.exists_of_mem he hdown (hevent ▸ htest)
              exact ⟨e'.fromEvent, (hmem _).mpr ⟨e', hcollected, rfl⟩, hevent'.trans hevent⟩
          have hstep : [entry].foldlM (Scan.step d) s = s.step d entry := by
            simp
          rw [Option.bind_eq_bind, Option.bind_some, hstep]
          unfold Scan.step Breaks
          cases htype : entry.eventType with
          | keyDown =>
              cases htest : d.testEvent entry.event with
              | true =>
                  by_cases hin : entry.event ∈ d.countedEvents read
                  · simp [hseen, hin, hbroken, hcounted]
                  · simp [hseen, hin, hbroken, hcounted]
              | false =>
                  by_cases hmatched : d.IsMatched read
                  · simp [hfound.mpr hmatched, hbroken, hcounted, hmatched]
                  · have hnot : d.allFromEventsFound s.fromEvents = false := by
                      rw [Bool.eq_false_iff, Ne, hfound]
                      exact hmatched
                    cases hdetect : d.simultaneousOptions.detectKeyDownUninterruptedly <;>
                      simp [hnot, hbroken, hcounted, hmatched]
          | keyUp =>
              by_cases hin : entry.fromEvent ∈ s.fromEvents
              · have hheld := (hmem _).mp hin
                by_cases hmatched : d.IsMatched read
                · by_cases hup : entry.event ∈ s.orderedKeyUpEvents <;>
                    simp [hin, hup, hfound.mpr hmatched, hbroken, hcounted, hmatched]
                · have hnot : d.allFromEventsFound s.fromEvents = false := by
                    rw [Bool.eq_false_iff, Ne, hfound]
                    exact hmatched
                  simp only [hin, hnot, if_true, Bool.not_false]
                  exact Or.inr ⟨hmatched, Or.inr ⟨trivial, hheld⟩⟩
              · have hheld : ¬ ∃ e, IsCollected d read e ∧ e.fromEvent = entry.fromEvent := fun h =>
                  hin ((hmem _).mpr h)
                simp only [hin, if_false]
                refine ⟨?_, by simpa using hcounted⟩
                rintro (h | ⟨-, ⟨h, -⟩ | ⟨-, h⟩⟩)
                · exact hbroken h
                · cases h
                · exact hheld h
          | single => simp [hbroken, hcounted]

/-! ### The order of the key_downs -/

/-- No more events than definitions, each the one of the definition at its place. -/
theorem zip_all_iff {events : List Event} {switches : List MomentarySwitchEvent}
    (hlength : events.length ≤ switches.length) :
    ((events.zip (switches.map EventDefinition.momentarySwitchEvent)).all fun p =>
        p.2.testEvent p.1) = true ↔
      events <+: switches.map .momentarySwitchEvent := by
  induction events generalizing switches with
  | nil => simp
  | cons event events ih =>
      cases switches with
      | nil => simp at hlength
      | cons switch switches =>
          have hrest := ih (Nat.le_of_succ_le_succ hlength)
          have hevent : (EventDefinition.momentarySwitchEvent switch).testEvent event = true ↔
              event = .momentarySwitchEvent switch := by
            cases event <;> simp [EventDefinition.testEvent]
          rw [List.map_cons, List.zip_cons_cons, List.all_cons, Bool.and_eq_true, hrest, hevent,
            List.map_cons, List.cons_prefix_cons]

/-- There are no more counted events than definitions. -/
theorem length_countedEvents_le {switches : List MomentarySwitchEvent}
    (hdefinitions : d.eventDefinitions = switches.map .momentarySwitchEvent) :
    (d.countedEvents read).length ≤ switches.length := by
  have hsub : d.countedEvents read ⊆ switches.map Event.momentarySwitchEvent := by
    intro event hevent
    obtain ⟨e, he, htest⟩ := List.any_eq_true.mp (mem_countedEvents.mp hevent).1
    rw [hdefinitions] at he
    obtain ⟨switch, hswitch, rfl⟩ := List.mem_map.mp he
    refine List.mem_map.mpr ⟨switch, hswitch, ?_⟩
    cases event <;> simp_all [EventDefinition.testEvent]
  have hle := ((nodup_eraseDups _).subperm hsub).length_le
  rwa [List.length_map] at hle

/-- `test_key_order` of the counted events. -/
theorem testKeyOrder_iff {switches : List MomentarySwitchEvent}
    (hdefinitions : d.eventDefinitions = switches.map .momentarySwitchEvent)
    (keyOrder : KeyOrder) :
    testKeyOrder (d.countedEvents read) keyOrder d.eventDefinitions = true ↔
      InOrder keyOrder switches (d.countedEvents read) := by
  have hlength : (d.countedEvents read).length ≤ switches.length :=
    length_countedEvents_le hdefinitions
  cases keyOrder with
  | insensitive => simp [testKeyOrder, InOrder]
  | strict =>
      rw [testKeyOrder, hdefinitions, zip_all_iff hlength, InOrder]
  | strictInverse =>
      rw [testKeyOrder, hdefinitions, ← List.map_reverse,
        zip_all_iff (by rwa [List.length_reverse]), InOrder]

/-- **What a detection decides** for a rule from switches in any key_up order. -/
theorem detect_spec {switches : List MomentarySwitchEvent}
    (hdefinitions : d.eventDefinitions = switches.map .momentarySwitchEvent)
    (hkeyUp : d.simultaneousOptions.keyUpOrder = .insensitive) {endTimeStamp : AbsoluteTime}
    {entries : List Entry} {front : Entry} (hfront : front ∈ window endTimeStamp entries)
    (down : front.eventType = .keyDown) (target : d.testEvent front.event = true) :
    match d.detect endTimeStamp entries with
    | none => d.Violation switches (window endTimeStamp entries)
    | some (fromEvents, needsWaitKeyUp) =>
      needsWaitKeyUp = false ∧ ¬ d.Violation switches (window endTimeStamp entries) ∧
        (d.allFromEventsFound fromEvents = true ↔ d.IsMatched (window endTimeStamp entries)) := by
  have hscan := d.foldlM_step_spec (window endTimeStamp entries)
  unfold detect
  rw [scan_eq_foldlM]
  cases hs : (window endTimeStamp entries).foldlM (Scan.step d) {} with
  | none =>
      rw [hs] at hscan
      exact Or.inl hscan
  | some s =>
      rw [hs] at hscan
      obtain ⟨hbroken, hcounted⟩ := hscan
      have horder : _ ↔ InOrder _ switches (d.countedEvents (window endTimeStamp entries)) :=
        testKeyOrder_iff hdefinitions d.simultaneousOptions.keyDownOrder
      have hne : s.fromEvents ≠ ∅ := by
        obtain ⟨e, hcollected, -⟩ := IsCollected.exists_of_mem hfront down target
        exact Finset.ne_empty_of_mem ((Scan.mem_fromEvents_iff hs _).mpr ⟨e, hcollected, rfl⟩)
      dsimp only
      rw [if_neg hne, hcounted]
      by_cases hinOrder : InOrder d.simultaneousOptions.keyDownOrder switches
          (d.countedEvents (window endTimeStamp entries))
      · rw [horder.mpr hinOrder, if_neg (by decide), if_pos hkeyUp]
        exact ⟨rfl, fun h => h.elim hbroken fun h => h hinOrder, allFromEventsFound_iff hs⟩
      · have hnot : testKeyOrder (d.countedEvents (window endTimeStamp entries))
            d.simultaneousOptions.keyDownOrder d.eventDefinitions = false := by
          rw [Bool.eq_false_iff, Ne, horder]
          exact hinOrder
        rw [hnot, if_pos (by decide)]
        exact Or.inr hinOrder

end FromEventDefinition

namespace Basic

variable [Exprtk] [SystemClock] [MachTimebase]

/-! ### The result of `manipulate` -/

/-- The entries that a scan for the front entry reads. -/
def read (b : Basic) (front : Entry) (rest : List Entry) : List Entry :=
  window (b.endTimeStamp front) (front :: rest)

theorem result_manipulateDetected (b : Basic) {switches : List MomentarySwitchEvent}
    (hdefinitions : b.definition.from_.eventDefinitions = switches.map .momentarySwitchEvent)
    (hkeyUp : b.definition.from_.simultaneousOptions.keyUpOrder = .insensitive) {front : Entry}
    (valid : front.validity = .valid) (down : front.eventType = .keyDown)
    (target : b.definition.from_.testEvent front.event = true) (rest : List Entry)
    (fromMandatoryModifiers : List ModifierFlag) (output : Output) (now : AbsoluteTime) :
    let r := b.manipulateDetected front rest fromMandatoryModifiers output now
    let d := b.definition.from_
    (r.result = .manipulated ↔
      ¬ d.Violation switches (b.read front rest) ∧ d.IsMatched (b.read front rest)) ∧
    (r.result = .needsWaitUntilTimeStamp ↔
      ¬ d.Violation switches (b.read front rest) ∧ ¬ d.IsMatched (b.read front rest) ∧
        now < front.eventTimeStamp.timeStamp +
          max front.eventTimeStamp.inputDelayDuration b.definition.simultaneousThreshold) := by
  have hfront : front ∈ b.read front rest := (collects_front valid down target rest).mem
  have hdetect := FromEventDefinition.detect_spec hdefinitions hkeyUp hfront down target
  rw [← read] at hdetect
  dsimp only
  unfold manipulateDetected
  dsimp only
  rw [← endTimeStamp]
  cases hd : b.definition.from_.detect (b.endTimeStamp front) (front :: rest) with
  | none =>
      rw [hd] at hdetect
      simp [hdetect]
  | some found =>
      obtain ⟨fromEvents, needsWaitKeyUp⟩ := found
      rw [hd] at hdetect
      obtain ⟨rfl, hviolation, hfound⟩ := hdetect
      by_cases hmatched : b.definition.from_.IsMatched (b.read front rest)
      · simp [hfound.mpr hmatched, hviolation, hmatched, capture, finish]
      · have hnot : b.definition.from_.allFromEventsFound fromEvents = false := by
          rw [Bool.eq_false_iff, Ne, hfound]
          exact hmatched
        by_cases hearly : now < (b.delayInput front).eventTimeStamp.makeTimeStampWithInputDelay
        · have hearly' : now < front.eventTimeStamp.timeStamp + max
              front.eventTimeStamp.inputDelayDuration b.definition.simultaneousThreshold := hearly
          simp [hnot, hviolation, hmatched, hearly, hearly']
        · have hlate : ¬ now < front.eventTimeStamp.timeStamp + max
              front.eventTimeStamp.inputDelayDuration b.definition.simultaneousThreshold := hearly
          simp only [hnot, Bool.not_false, Bool.or_true, if_true, if_neg hearly]
          simp [hviolation, hmatched, not_lt.mp hlate]

/-- **Simultaneous detection meets its declarative meaning.**  A key_down is manipulated if the keys
of all definitions are pressed without a violation; the new press has the from events of the counted
key_downs.  It waits if there is no violation and keys may still arrive, and it passes otherwise. -/
theorem manipulate_detection (b : Basic) {switches : List MomentarySwitchEvent}
    (hdefinitions : b.definition.from_.eventDefinitions = switches.map .momentarySwitchEvent)
    (hkeyUp : b.definition.from_.simultaneousOptions.keyUpOrder = .insensitive)
    (enabled : b.validity = .valid) {front : Entry} (valid : front.validity = .valid)
    (down : front.eventType = .keyDown)
    (target : b.definition.from_.testEvent front.event = true) (rest : List Entry)
    (output : Output) (now : AbsoluteTime)
    (hmodifiers : (b.definition.from_.fromModifiersDefinition.testModifiers
      (b.observe front output).2.queue.modifierFlagManager).isSome = true)
    (hconditions : (isFulfilled b.definition.conditions front
      (b.observe front output).2.queue.manipulatorEnvironment
      (b.observe front output).2.world).1 = true) :
    let r := b.manipulate front rest output now
    let d := b.definition.from_
    (r.result = .manipulated ↔
      ¬ d.Violation switches (b.read front rest) ∧ d.IsMatched (b.read front rest)) ∧
    (r.result = .needsWaitUntilTimeStamp ↔
      ¬ d.Violation switches (b.read front rest) ∧ ¬ d.IsMatched (b.read front rest) ∧
        now < front.eventTimeStamp.timeStamp +
          max front.eventTimeStamp.inputDelayDuration b.definition.simultaneousThreshold) ∧
    (r.result = .manipulated → ∃ fromEvents, Adds b r.basic fromEvents ∧
      ∀ fe, fe ∈ fromEvents ↔ ∃ e, IsCollected d (b.read front rest) e ∧ e.fromEvent = fe) ∧
    (r.result ≠ .manipulated → SameHeld b r.basic) := by
  have hobserve := b.sameHeld_observe front output
  have htarget := hobserve.definition ▸ target
  have hmanipulate : b.manipulate front rest output now =
      (b.observe front output).1.manipulateKeyDown front rest (b.observe front output).2 now := by
    unfold manipulate
    generalize b.observe front output = observed at htarget
    simp [valid, htarget, down]
  have houtcome : Outcome b front rest (b.manipulate front rest output now) :=
    .of_sameHeld hobserve ((b.manipulates_manipulate front rest output now).outcome fun up =>
      absurd (down.symm.trans up) (by decide))
  have hresult : ∃ fromMandatoryModifiers output', (b.manipulate front rest output now).result =
      ((b.observe front output).1.manipulateDetected front rest fromMandatoryModifiers output'
        now).result := by
    obtain ⟨flags, hflags⟩ := Option.isSome_iff_exists.mp hmodifiers
    rw [hmanipulate]
    unfold manipulateKeyDown
    rw [hobserve.validity, hobserve.definition, enabled, hflags]
    dsimp only
    rw [if_neg (by decide), hconditions, if_neg (by decide)]
    exact ⟨flags, _, rfl⟩
  obtain ⟨flags, output', heq⟩ := hresult
  have hspec := (b.observe front output).1.result_manipulateDetected
    (hobserve.definition ▸ hdefinitions) (hobserve.definition ▸ hkeyUp) valid down htarget rest
    flags
    output' now
  dsimp only [read, endTimeStamp] at hspec ⊢
  rw [← heq, hobserve.definition] at hspec
  refine ⟨hspec.1, hspec.2, fun hresult => ?_, fun hresult => ?_⟩
  · cases houtcome with
    | passed result => exact absurd (result.symm.trans hresult) (by decide)
    | waits result => exact absurd (result.symm.trans hresult) (by decide)
    | captured fromEvents _ _ adds _ _ _ _ collected => exact ⟨fromEvents, adds, collected⟩
    | released _ _ _ up => exact absurd (down.symm.trans up) (by decide)
  · cases houtcome with
    | passed _ _ held => exact held
    | waits _ _ held => exact held
    | captured _ result => exact absurd result hresult
    | released _ _ _ up => exact absurd (down.symm.trans up) (by decide)

end Basic

end Karabiner

namespace Karabiner.Basic

/-- The keys `a` and `b`. -/
def twoKeys : List MomentarySwitchEvent :=
  [⟨⟨UsagePage.keyboardOrKeypad, 4⟩⟩, ⟨⟨UsagePage.keyboardOrKeypad, 5⟩⟩]

/-- A manipulator from two keys. -/
def fromTwoKeys : Basic where
  definition := { from_ := { eventDefinitions := twoKeys.map .momentarySwitchEvent } }

/-- A key goes down. -/
def keyDownEntry (usage : ℤ) (timeStamp : AbsoluteTime) : Entry :=
  let e : Event := .momentarySwitchEvent ⟨⟨UsagePage.keyboardOrKeypad, usage⟩⟩
  ⟨1, ⟨timeStamp, 0⟩, e, .keyDown, e, .original, false, .valid⟩

/-- Two keys that are pressed together match without a violation. -/
theorem manipulate_detection_twoKeys :
    ∃ (_ : MachTimebase),
      ¬ fromTwoKeys.definition.from_.Violation twoKeys
          (fromTwoKeys.read (keyDownEntry 4 0) [keyDownEntry 5 1]) ∧
        fromTwoKeys.definition.from_.IsMatched
          (fromTwoKeys.read (keyDownEntry 4 0) [keyDownEntry 5 1]) := by
  let _ : Exprtk := .singleVariable
  let _ : SystemClock := ⟨fun _ => 0⟩
  let _ : MachTimebase := ⟨1, 1⟩
  have hdetection := @manipulate_detection _ _ _ fromTwoKeys twoKeys rfl rfl rfl (keyDownEntry 4 0)
    rfl rfl (by decide) [keyDownEntry 5 1] ⟨{}, World.initial⟩ 1 (by decide) (by decide)
  exact ⟨inferInstance, hdetection.1.mp (by decide)⟩

end Karabiner.Basic
