import Karabiner.Library.Machine
import Karabiner.Manipulator.PostEventToVirtualDevices.Queue
import Karabiner.ModifierFlagManager
import Mathlib.Data.Finset.Basic

/-!
# The key event dispatcher

`manipulators/post_event_to_virtual_devices/key_event_dispatcher.hpp`.  The dispatcher keeps what it
has posted as pressed: a list of keys with the device that pressed them, and a set of modifier
flags.  It posts to the report queue only what changes that state, and the reports the queue
accumulates are the dispatcher's state at any time (`run_agrees`).

Caps lock is never held: the dispatcher toggles it by a key_down and a key_up.
-/

namespace Karabiner

namespace PostEventToVirtualDevices

/-- `key_event_dispatcher`. -/
structure KeyEventDispatcher where
  pressedKeys : List (DeviceId × UsagePair) := []
  pressedModifierFlags : Finset ModifierFlag := ∅

namespace KeyEventDispatcher

variable [HidReport] [MachTimebase]

omit [HidReport] [MachTimebase] in
/-- `key_event_exists`. -/
def keyEventExists (d : KeyEventDispatcher) (usagePair : UsagePair) : Bool :=
  d.pressedKeys.any fun k => k.2 = usagePair

/-- `dispatch_key_down_event`. -/
def dispatchKeyDownEvent (d : KeyEventDispatcher) (deviceId : DeviceId) (usagePair : UsagePair)
    (q : Queue) (timeStamp : AbsoluteTime) : KeyEventDispatcher × Queue :=
  -- Enqueue key_down event if it is not sent yet.
  if !d.keyEventExists usagePair then
    ({ d with pressedKeys := d.pressedKeys ++ [(deviceId, usagePair)] },
      q.emplaceBackKeyEvent usagePair .keyDown timeStamp)
  else (d, q)

/-- `dispatch_key_up_event`. -/
def dispatchKeyUpEvent (d : KeyEventDispatcher) (usagePair : UsagePair) (q : Queue)
    (timeStamp : AbsoluteTime) : KeyEventDispatcher × Queue :=
  -- Enqueue key_up event if it is already sent.
  if d.keyEventExists usagePair then
    ({ d with pressedKeys := d.pressedKeys.filter fun k => k.2 ≠ usagePair },
      q.emplaceBackKeyEvent usagePair .keyUp timeStamp)
  else (d, q)

omit [HidReport] [MachTimebase] in
/-- The modifiers in the order of `dispatch_modifier_key_event`: general keys, then lock keys. -/
def dispatchedModifierFlags : List ModifierFlag :=
  [.leftControl, .leftShift, .leftOption, .leftCommand, .rightControl, .rightShift, .rightOption,
    .rightCommand, .fn, .capsLock]

/-- The caps lock handling of `dispatch_modifier_key_event`: release the key if it is held, then
press and release it. -/
def sendCapsLock (d : KeyEventDispatcher) (q : Queue) (timeStamp : AbsoluteTime) :
    KeyEventDispatcher × Queue :=
  let usagePair := (MomentarySwitchEvent.ofModifierFlag .capsLock).usagePair
  let (d, q) := d.dispatchKeyUpEvent usagePair q timeStamp
  (d, (q.emplaceBackKeyEvent usagePair .keyDown timeStamp).emplaceBackKeyEvent usagePair .keyUp
    timeStamp)

/-- The key event for a modifier flag that has changed. -/
def enqueueModifier (d : KeyEventDispatcher) (m : ModifierFlag) (eventType : EventType)
    (q : Queue) (timeStamp : AbsoluteTime) : KeyEventDispatcher × Queue :=
  if m = .capsLock then d.sendCapsLock q timeStamp
  else
    let e := MomentarySwitchEvent.ofModifierFlag m
    (d, if e.valid then q.emplaceBackKeyEvent e.usagePair eventType timeStamp else q)

/-- One round of the loop of `dispatch_modifier_key_event`. -/
def dispatchModifierFlag (manager : ModifierFlagManager) (timeStamp : AbsoluteTime)
    (s : KeyEventDispatcher × Queue) (m : ModifierFlag) : KeyEventDispatcher × Queue :=
  let (d, q) := s
  let pressed : Bool := m ∈ d.pressedModifierFlags
  match manager.isPressed m, pressed with
  | true, false =>
    { d with pressedModifierFlags := insert m d.pressedModifierFlags }.enqueueModifier m .keyDown q
      timeStamp
  | false, true =>
    { d with pressedModifierFlags := d.pressedModifierFlags.erase m }.enqueueModifier m .keyUp q
      timeStamp
  | _, _ => (d, q)

/-- `dispatch_modifier_key_event`. -/
def dispatchModifierKeyEvent (d : KeyEventDispatcher) (manager : ModifierFlagManager) (q : Queue)
    (timeStamp : AbsoluteTime) : KeyEventDispatcher × Queue :=
  dispatchedModifierFlags.foldl (dispatchModifierFlag manager timeStamp) (d, q)

/-- The loop of `dispatch_key_up_events_by_device_id`. -/
def dispatchKeyUpEventsByDeviceIdFrom (deviceId : DeviceId) (timeStamp : AbsoluteTime) :
    ℕ → KeyEventDispatcher × Queue → KeyEventDispatcher × Queue
  | 0, s => s
  | fuel + 1, s =>
    match s.1.pressedKeys.find? fun k => k.1 = deviceId with
    | some k =>
      dispatchKeyUpEventsByDeviceIdFrom deviceId timeStamp fuel
        (s.1.dispatchKeyUpEvent k.2 s.2 timeStamp)
    | none => s

/-- `dispatch_key_up_events_by_device_id`.  Each round removes a key, so the number of keys is
enough fuel (`find?_dispatchKeyUpEventsByDeviceId`). -/
def dispatchKeyUpEventsByDeviceId (d : KeyEventDispatcher) (deviceId : DeviceId) (q : Queue)
    (timeStamp : AbsoluteTime) : KeyEventDispatcher × Queue :=
  dispatchKeyUpEventsByDeviceIdFrom deviceId timeStamp d.pressedKeys.length (d, q)

omit [HidReport] [MachTimebase] in
/-- `insert_pressed_modifier_flag`. -/
def insertPressedModifierFlag (d : KeyEventDispatcher) (m : ModifierFlag) : KeyEventDispatcher :=
  { d with pressedModifierFlags := insert m d.pressedModifierFlags }

omit [HidReport] [MachTimebase] in
/-- `erase_pressed_modifier_flag`. -/
def erasePressedModifierFlag (d : KeyEventDispatcher) (m : ModifierFlag) : KeyEventDispatcher :=
  { d with pressedModifierFlags := d.pressedModifierFlags.erase m }

omit [HidReport] [MachTimebase] in
/-- A key is there if some device has it pressed. -/
theorem keyEventExists_iff (d : KeyEventDispatcher) (p : UsagePair) :
    d.keyEventExists p = true ↔ p ∈ d.pressedKeys.map Prod.snd := by
  simp [keyEventExists]

/-- The loop of `dispatch_key_up_events_by_device_id` ends with no key of the device left. -/
theorem find?_dispatchKeyUpEventsByDeviceId (d : KeyEventDispatcher) (deviceId : DeviceId)
    (q : Queue) (timeStamp : AbsoluteTime) :
    (d.dispatchKeyUpEventsByDeviceId deviceId q timeStamp).1.pressedKeys.find?
      (fun k => k.1 = deviceId) = none := by
  have hloop : ∀ (fuel : ℕ) (s : KeyEventDispatcher × Queue), s.1.pressedKeys.length ≤ fuel →
      (dispatchKeyUpEventsByDeviceIdFrom deviceId timeStamp fuel s).1.pressedKeys.find?
        (fun k => k.1 = deviceId) = none := by
    intro fuel
    induction fuel with
    | zero =>
        intro s hs
        rw [dispatchKeyUpEventsByDeviceIdFrom, List.length_eq_zero_iff.mp (Nat.le_zero.mp hs)]
        rfl
    | succ fuel ih =>
        intro s hs
        rw [dispatchKeyUpEventsByDeviceIdFrom]
        cases hfind : s.1.pressedKeys.find? fun k => k.1 = deviceId with
        | none => exact hfind
        | some k =>
            have hmem := List.mem_of_find?_eq_some hfind
            have hexists : s.1.keyEventExists k.2 = true :=
              (keyEventExists_iff _ _).mpr (List.mem_map_of_mem hmem)
            refine ih _ (Nat.le_of_lt_succ (lt_of_lt_of_le ?_ hs))
            simp only [dispatchKeyUpEvent, hexists, if_true]
            exact List.length_filter_lt_length_iff_exists.mpr ⟨k, hmem, by simp⟩
  exact hloop _ _ le_rfl

/-! ### Modifier keys and their bits -/

omit [HidReport] [MachTimebase] in
/-- A key that is no modifier has no bit in the report. -/
theorem modifierBit_eq_none {p : UsagePair}
    (h : (MomentarySwitchEvent.mk p).modifierFlag = false) : Queue.modifierBit p = none := by
  rw [MomentarySwitchEvent.modifierFlag, Option.isSome_eq_false_iff, Option.isNone_iff_eq_none] at h
  simp only [Queue.modifierBit, h, Option.bind_none]

omit [HidReport] [MachTimebase] in
/-- The key of one of the eight modifiers is valid and has its bit. -/
theorem modifierBit_ofModifierFlag {m : ModifierFlag} {r : HidReportModifier}
    (h : makeHidReportModifier m = some r) :
    m ≠ .capsLock ∧ (MomentarySwitchEvent.ofModifierFlag m).valid = true ∧
      Queue.modifierBit (MomentarySwitchEvent.ofModifierFlag m).usagePair = some r := by
  cases m <;> cases h <;> decide

omit [HidReport] [MachTimebase] in
/-- Different flags have different bits. -/
theorem eq_of_makeHidReportModifier {m m' : ModifierFlag} {r : HidReportModifier}
    (h : makeHidReportModifier m = some r) (h' : makeHidReportModifier m' = some r) : m = m' := by
  cases m <;> cases h <;> cases m' <;> first | rfl | cases h'

omit [HidReport] [MachTimebase] in
/-- The usage of the fn key. -/
def fnUsagePair : UsagePair := (MomentarySwitchEvent.ofModifierFlag .fn).usagePair

/-! ### The reports are the state of the dispatcher -/

omit [HidReport] [MachTimebase] in
/-- The dispatcher holds a usage: as a key, or as the fn modifier. -/
def Holds (d : KeyEventDispatcher) (p : UsagePair) : Prop :=
  p ∈ d.pressedKeys.map Prod.snd ∨ p = fnUsagePair ∧ .fn ∈ d.pressedModifierFlags

/-- **The coherence invariant** of the dispatcher and the report queue. -/
structure Coherent (s : KeyEventDispatcher × Queue) : Prop where
  nodup : (s.1.pressedKeys.map Prod.snd).Nodup
  not_modifier : ∀ p ∈ s.1.pressedKeys.map Prod.snd,
    (MomentarySwitchEvent.mk p).modifierFlag = false
  reported : ∀ p, Queue.modifierBit p = none → p.usagePage ∈ Queue.reportedPages →
    (s.2.reported p = true ↔ s.1.Holds p)
  modifiers : ∀ m r, makeHidReportModifier m = some r →
    (HidReport.modifierExists s.2.keyboardInput.modifiers r = true ↔
      m ∈ s.1.pressedModifierFlags)
  repeating : ∀ e, s.2.keyboardRepeatDetector.repeatingKey = some e →
    e.valid = true ∧ e.usagePair ∈ s.1.pressedKeys.map Prod.snd

omit [MachTimebase] in
/-- The invariant is about the accumulators and the repeating key of the queue only. -/
theorem Coherent.of_queue {d : KeyEventDispatcher} {q q' : Queue} (h : Coherent (d, q))
    (keysOf : q'.keysOf = q.keysOf)
    (modifiers : q'.keyboardInput.modifiers = q.keyboardInput.modifiers)
    (repeating : ∀ e, q'.keyboardRepeatDetector.repeatingKey = some e →
      q.keyboardRepeatDetector.repeatingKey = some e) : Coherent (d, q') where
  nodup := h.nodup
  not_modifier := h.not_modifier
  reported p hbit hpage := by
    rw [← h.reported p hbit hpage]
    simp only [Queue.reported, keysOf]
  modifiers m r hm := by
    rw [← h.modifiers m r hm]
    simp only [modifiers]
  repeating e he := h.repeating e (repeating e he)

/-- A new key is pressed. -/
theorem coherent_keyDown (sets : HidReport.ContainersAreSets) {d : KeyEventDispatcher} {q : Queue}
    (h : Coherent (d, q)) {p : UsagePair} (hp : (MomentarySwitchEvent.mk p).modifierFlag = false)
    (hnew : p ∉ d.pressedKeys.map Prod.snd) (deviceId : DeviceId) (timeStamp : AbsoluteTime) :
    Coherent ({ d with pressedKeys := d.pressedKeys ++ [(deviceId, p)] },
      q.emplaceBackKeyEvent p .keyDown timeStamp) where
  nodup := by
    rw [List.map_append, List.nodup_append]
    refine ⟨h.nodup, by simp, fun a ha b hb => ?_⟩
    rw [List.mem_singleton.mp hb]
    rintro rfl
    exact hnew ha
  not_modifier p' hp' := by
    rw [List.map_append, List.mem_append] at hp'
    rcases hp' with hp' | hp'
    · exact h.not_modifier p' hp'
    · rw [List.mem_singleton.mp hp']
      exact hp
  reported p' hbit hpage := by
    rw [q.reported_keyDown sets (modifierBit_eq_none hp) timeStamp hpage, Bool.or_eq_true,
      h.reported p' hbit hpage]
    simp only [Holds, List.map_append, List.mem_append, List.map_cons, List.map_nil,
      List.mem_singleton, decide_eq_true_eq]
    tauto
  modifiers m r hm := by
    rw [q.modifiers_emplaceBackKeyEvent (modifierBit_eq_none hp)]
    exact h.modifiers m r hm
  repeating e he := by
    rw [Queue.keyboardRepeatDetector_emplaceBackKeyEvent, KeyboardRepeatDetector.set] at he
    rw [List.map_append, List.mem_append]
    cases hvalid : (MomentarySwitchEvent.mk p).valid with
    | false =>
        simp only [hvalid] at he
        exact (h.repeating e he).imp_right Or.inl
    | true =>
        simp only [hvalid, hp] at he
        cases he
        exact ⟨hvalid, Or.inr (List.mem_singleton_self _)⟩

/-- A key is released. -/
theorem coherent_keyUp (sets : HidReport.ContainersAreSets) {d : KeyEventDispatcher} {q : Queue}
    (h : Coherent (d, q)) {p : UsagePair} (hp : (MomentarySwitchEvent.mk p).modifierFlag = false)
    (timeStamp : AbsoluteTime) :
    Coherent ({ d with pressedKeys := d.pressedKeys.filter fun k => k.2 ≠ p },
      q.emplaceBackKeyEvent p .keyUp timeStamp) := by
  have hmem : ∀ p', p' ∈ (d.pressedKeys.filter fun k => k.2 ≠ p).map Prod.snd ↔
      p' ≠ p ∧ p' ∈ d.pressedKeys.map Prod.snd := fun p' => by
    simp only [List.mem_map, List.mem_filter, decide_eq_true_eq]
    exact ⟨fun ⟨k, ⟨hk, hne⟩, heq⟩ => ⟨heq ▸ hne, k, hk, heq⟩,
      fun ⟨hne, k, hk, heq⟩ => ⟨k, ⟨hk, heq ▸ hne⟩, heq⟩⟩
  have hfn : fnUsagePair ≠ p := by
    rintro rfl
    exact absurd hp (by decide)
  refine ⟨h.nodup.sublist (List.filter_sublist.map _), fun p' hp' => ?_, fun p' hbit hpage => ?_,
    fun m r hm => ?_, fun e he => ?_⟩
  · exact h.not_modifier p' ((hmem p').mp hp').2
  · rw [q.reported_keyUp sets (modifierBit_eq_none hp) timeStamp hpage, Bool.and_eq_true,
      h.reported p' hbit hpage, decide_eq_true_eq]
    simp only [Holds, hmem]
    constructor
    · rintro ⟨hne, hp' | hfn'⟩
      · exact Or.inl ⟨hne, hp'⟩
      · exact Or.inr hfn'
    · rintro (⟨hne, hp'⟩ | ⟨rfl, hfn'⟩)
      · exact ⟨hne, Or.inl hp'⟩
      · exact ⟨hfn, Or.inr ⟨rfl, hfn'⟩⟩
  · rw [q.modifiers_emplaceBackKeyEvent (modifierBit_eq_none hp)]
    exact h.modifiers m r hm
  · rw [Queue.keyboardRepeatDetector_emplaceBackKeyEvent, KeyboardRepeatDetector.set] at he
    have hrepeating : q.keyboardRepeatDetector.repeatingKey = some e ∧ e ≠ ⟨p⟩ := by
      cases hvalid : (MomentarySwitchEvent.mk p).valid with
      | false =>
          simp only [hvalid] at he
          refine ⟨he, ?_⟩
          rintro rfl
          exact absurd (h.repeating _ he).1 (by simp [hvalid])
      | true =>
          simp only [hvalid, Bool.not_true, Bool.false_eq_true, if_false] at he
          split at he
          · exact absurd he (by simp)
          · exact ⟨he, fun heq => by simp_all⟩
    obtain ⟨hvalid, hin⟩ := h.repeating e hrepeating.1
    exact ⟨hvalid, (hmem _).mpr ⟨fun heq => hrepeating.2 (by rw [← heq]), hin⟩⟩

/-- A key that is not held is pressed and released. -/
theorem coherent_tap (sets : HidReport.ContainersAreSets) {d : KeyEventDispatcher} {q : Queue}
    (h : Coherent (d, q)) {p : UsagePair} (hp : (MomentarySwitchEvent.mk p).modifierFlag = false)
    (hnew : p ∉ d.pressedKeys.map Prod.snd) (timeStamp : AbsoluteTime) :
    Coherent (d, (q.emplaceBackKeyEvent p .keyDown timeStamp).emplaceBackKeyEvent p .keyUp
      timeStamp) := by
  have hdown := coherent_keyUp sets (coherent_keyDown sets h hp hnew 0 timeStamp) hp timeStamp
  have hkeys : (d.pressedKeys ++ [(0, p)]).filter (fun k => k.2 ≠ p) = d.pressedKeys := by
    rw [List.filter_append, List.filter_eq_self.mpr]
    · simp
    · intro k hk
      exact decide_eq_true fun heq => hnew (heq ▸ List.mem_map_of_mem hk)
  rwa [hkeys] at hdown

/-! ### The operations keep the invariant -/

/-- A key_down is reported unless the key is pressed already. -/
theorem coherent_dispatchKeyDownEvent (sets : HidReport.ContainersAreSets)
    {d : KeyEventDispatcher} {q : Queue} (h : Coherent (d, q)) {p : UsagePair}
    (hp : (MomentarySwitchEvent.mk p).modifierFlag = false) (deviceId : DeviceId)
    (timeStamp : AbsoluteTime) : Coherent (d.dispatchKeyDownEvent deviceId p q timeStamp) := by
  rw [dispatchKeyDownEvent]
  cases hexists : d.keyEventExists p with
  | true => exact h
  | false =>
      refine coherent_keyDown sets h hp ?_ deviceId timeStamp
      rw [← keyEventExists_iff, hexists]
      exact Bool.false_ne_true

/-- A key_up is reported if the key was pressed. -/
theorem coherent_dispatchKeyUpEvent (sets : HidReport.ContainersAreSets)
    {d : KeyEventDispatcher} {q : Queue} (h : Coherent (d, q)) (p : UsagePair)
    (timeStamp : AbsoluteTime) : Coherent (d.dispatchKeyUpEvent p q timeStamp) := by
  rw [dispatchKeyUpEvent]
  cases hexists : d.keyEventExists p with
  | false => exact h
  | true =>
      exact coherent_keyUp sets h (h.not_modifier p ((keyEventExists_iff d p).mp hexists)) timeStamp

/-- The key of a `dispatch_key_up_event` is not pressed afterwards. -/
theorem not_mem_dispatchKeyUpEvent (d : KeyEventDispatcher)
    (p : UsagePair) (q : Queue) (timeStamp : AbsoluteTime) :
    p ∉ (d.dispatchKeyUpEvent p q timeStamp).1.pressedKeys.map Prod.snd := by
  rw [dispatchKeyUpEvent]
  cases hexists : d.keyEventExists p with
  | false =>
      intro hmem
      rw [← keyEventExists_iff] at hmem
      exact absurd hexists (by simpa using hmem)
  | true => simp

/-- Caps lock is pressed and released, so that the report ends as it was. -/
theorem coherent_sendCapsLock (sets : HidReport.ContainersAreSets) {d : KeyEventDispatcher}
    {q : Queue} (h : Coherent (d, q)) (timeStamp : AbsoluteTime) :
    Coherent (d.sendCapsLock q timeStamp) :=
  coherent_tap sets (coherent_dispatchKeyUpEvent sets h _ timeStamp) (by decide)
    (not_mem_dispatchKeyUpEvent d _ q timeStamp) timeStamp

omit [MachTimebase] in
/-- The flag of caps lock is in no report. -/
theorem Coherent.of_flags {d : KeyEventDispatcher} {q : Queue} (h : Coherent (d, q))
    {flags : Finset ModifierFlag}
    (hflags : ∀ m, m ≠ .capsLock → (m ∈ flags ↔ m ∈ d.pressedModifierFlags)) :
    Coherent ({ d with pressedModifierFlags := flags }, q) where
  nodup := h.nodup
  not_modifier := h.not_modifier
  reported p hbit hpage := by
    rw [h.reported p hbit hpage]
    simp only [Holds, hflags .fn (by decide)]
  modifiers m r hm := by
    rw [h.modifiers m r hm, hflags m (modifierBit_ofModifierFlag hm).1]
  repeating := h.repeating

/-- A key event of one of the eight modifiers changes its bit only. -/
theorem Coherent.of_modifier {d : KeyEventDispatcher} {q : Queue} (h : Coherent (d, q))
    {m₀ : ModifierFlag} {r₀ : HidReportModifier} (hm : makeHidReportModifier m₀ = some r₀)
    {eventType : EventType} (hsingle : eventType ≠ .single) (timeStamp : AbsoluteTime)
    {flags : Finset ModifierFlag} (hfn : .fn ∈ flags ↔ .fn ∈ d.pressedModifierFlags)
    (hmodifiers : ∀ m r, makeHidReportModifier m = some r →
      (HidReport.modifierExists (q.emplaceBackKeyEvent
        (MomentarySwitchEvent.ofModifierFlag m₀).usagePair eventType
          timeStamp).keyboardInput.modifiers r = true ↔ m ∈ flags)) :
    Coherent ({ d with pressedModifierFlags := flags },
      q.emplaceBackKeyEvent (MomentarySwitchEvent.ofModifierFlag m₀).usagePair eventType
        timeStamp) := by
  obtain ⟨-, -, hbit⟩ := modifierBit_ofModifierFlag hm
  refine ⟨h.nodup, h.not_modifier, fun p hp hpage => ?_, hmodifiers, fun e he => ?_⟩
  · rw [q.reported_modifier hbit hsingle, h.reported p hp hpage]
    simp only [Holds, hfn]
  · rw [Queue.keyboardRepeatDetector_emplaceBackKeyEvent] at he
    refine h.repeating e (KeyboardRepeatDetector.repeatingKey_of_set_modifier ?_ he)
    cases m₀ <;> cases hm <;> rfl

omit [HidReport] [MachTimebase] in
/-- The other modifiers leave fn as it is. -/
theorem fn_mem_insert_iff {m : ModifierFlag} {r : HidReportModifier}
    (hm : makeHidReportModifier m = some r) (flags : Finset ModifierFlag) :
    (.fn ∈ insert m flags ↔ .fn ∈ flags) ∧ (.fn ∈ flags.erase m ↔ .fn ∈ flags) := by
  have hne : ModifierFlag.fn ≠ m := by
    rintro rfl
    cases hm
  simp [hne]

/-- One of the eight modifiers is posted as pressed or released. -/
theorem coherent_modifier (sets : HidReport.ContainersAreSets) {d : KeyEventDispatcher}
    {q : Queue} (h : Coherent (d, q)) {m : ModifierFlag} {r : HidReportModifier}
    (hm : makeHidReportModifier m = some r) (timeStamp : AbsoluteTime) :
    Coherent ({ d with pressedModifierFlags := insert m d.pressedModifierFlags },
        q.emplaceBackKeyEvent (MomentarySwitchEvent.ofModifierFlag m).usagePair .keyDown
          timeStamp) ∧
      Coherent ({ d with pressedModifierFlags := d.pressedModifierFlags.erase m },
        q.emplaceBackKeyEvent (MomentarySwitchEvent.ofModifierFlag m).usagePair .keyUp
          timeStamp) := by
  obtain ⟨-, -, hbit⟩ := modifierBit_ofModifierFlag hm
  obtain ⟨hdown, hup⟩ := q.modifiers_emplaceBackKeyEvent_modifier hbit timeStamp
  obtain ⟨hinsert, herase⟩ := fn_mem_insert_iff hm d.pressedModifierFlags
  have hsame : ∀ {m' r'}, makeHidReportModifier m' = some r' → (r' = r ↔ m' = m) := fun hm' =>
    ⟨fun heq => eq_of_makeHidReportModifier (heq ▸ hm') hm,
      fun heq => Option.some_injective _ (hm'.symm.trans (heq ▸ hm))⟩
  refine ⟨h.of_modifier hm (by decide) timeStamp hinsert fun m' r' hm' => ?_,
    h.of_modifier hm (by decide) timeStamp herase fun m' r' hm' => ?_⟩
  · rw [hdown, sets.modifierExists_insertModifier, Bool.or_eq_true, decide_eq_true_eq,
      Finset.mem_insert, h.modifiers m' r' hm', hsame hm']
  · rw [hup, sets.modifierExists_eraseModifier, Bool.and_eq_true, decide_eq_true_eq,
      Finset.mem_erase, h.modifiers m' r' hm', Ne, hsame hm']

/-- The fn key is posted as pressed or released: a key of the top case page. -/
theorem coherent_fn (sets : HidReport.ContainersAreSets) {d : KeyEventDispatcher} {q : Queue}
    (h : Coherent (d, q)) (timeStamp : AbsoluteTime) :
    Coherent ({ d with pressedModifierFlags := insert .fn d.pressedModifierFlags },
        q.emplaceBackKeyEvent fnUsagePair .keyDown timeStamp) ∧
      Coherent ({ d with pressedModifierFlags := d.pressedModifierFlags.erase .fn },
        q.emplaceBackKeyEvent fnUsagePair .keyUp timeStamp) := by
  have hbit : Queue.modifierBit fnUsagePair = none := by decide
  have hkey : fnUsagePair ∉ d.pressedKeys.map Prod.snd := fun hmem =>
    absurd (h.not_modifier _ hmem) (by decide)
  have hne : ∀ {m r}, makeHidReportModifier m = some r → m ≠ .fn := fun hm => by
    rintro rfl
    cases hm
  constructor
  · refine ⟨h.nodup, h.not_modifier, fun p hp hpage => ?_, fun m r hm => ?_, fun e he => ?_⟩
    · rw [q.reported_keyDown sets hbit timeStamp hpage, Bool.or_eq_true, decide_eq_true_eq,
        h.reported p hp hpage]
      simp only [Holds, Finset.mem_insert_self, and_true]
      tauto
    · rw [q.modifiers_emplaceBackKeyEvent hbit, h.modifiers m r hm]
      simp [hne hm]
    · rw [Queue.keyboardRepeatDetector_emplaceBackKeyEvent] at he
      exact h.repeating e (KeyboardRepeatDetector.repeatingKey_of_set_modifier (by decide) he)
  · refine ⟨h.nodup, h.not_modifier, fun p hp hpage => ?_, fun m r hm => ?_, fun e he => ?_⟩
    · rw [q.reported_keyUp sets hbit timeStamp hpage, Bool.and_eq_true, decide_eq_true_eq,
        h.reported p hp hpage]
      simp only [Holds, Finset.mem_erase, ne_eq, not_true_eq_false, false_and, and_false, or_false]
      constructor
      · rintro ⟨hp', hmem | ⟨rfl, -⟩⟩
        · exact hmem
        · exact absurd rfl hp'
      · intro hmem
        refine ⟨?_, Or.inl hmem⟩
        rintro rfl
        exact hkey hmem
    · rw [q.modifiers_emplaceBackKeyEvent hbit, h.modifiers m r hm]
      simp [hne hm]
    · rw [Queue.keyboardRepeatDetector_emplaceBackKeyEvent] at he
      exact h.repeating e (KeyboardRepeatDetector.repeatingKey_of_set_modifier (by decide) he)

omit [HidReport] [MachTimebase] in
/-- The modifiers of the loop: caps lock, fn, and the eight with a bit. -/
theorem dispatchedModifierFlags_cases {m : ModifierFlag} (h : m ∈ dispatchedModifierFlags) :
    m = .capsLock ∨ m = .fn ∨ ∃ r, makeHidReportModifier m = some r := by
  cases m <;> simp_all [dispatchedModifierFlags, makeHidReportModifier]

/-- A modifier flag that has changed is posted. -/
theorem coherent_enqueueModifier (sets : HidReport.ContainersAreSets) {d : KeyEventDispatcher}
    {q : Queue} (h : Coherent (d, q)) {m : ModifierFlag} (hm : m ∈ dispatchedModifierFlags)
    (timeStamp : AbsoluteTime) :
    Coherent ({ d with pressedModifierFlags := insert m d.pressedModifierFlags }.enqueueModifier m
        .keyDown q timeStamp) ∧
      Coherent ({ d with pressedModifierFlags := d.pressedModifierFlags.erase m }.enqueueModifier m
        .keyUp q timeStamp) := by
  rcases dispatchedModifierFlags_cases hm with rfl | rfl | ⟨r, hr⟩
  · refine ⟨coherent_sendCapsLock sets (h.of_flags fun m hm => ?_) timeStamp,
      coherent_sendCapsLock sets (h.of_flags fun m hm => ?_) timeStamp⟩
    · simp [hm]
    · simp [hm]
  · exact coherent_fn sets h timeStamp
  · obtain ⟨hcaps, hvalid, -⟩ := modifierBit_ofModifierFlag hr
    simp only [enqueueModifier, if_neg hcaps, hvalid, if_true]
    exact coherent_modifier sets h hr timeStamp

/-- A modifier is reported when it has changed. -/
theorem coherent_dispatchModifierFlag (sets : HidReport.ContainersAreSets)
    {s : KeyEventDispatcher × Queue} (h : Coherent s) (manager : ModifierFlagManager)
    (timeStamp : AbsoluteTime) {m : ModifierFlag} (hm : m ∈ dispatchedModifierFlags) :
    Coherent (dispatchModifierFlag manager timeStamp s m) := by
  obtain ⟨d, q⟩ := s
  obtain ⟨hdown, hup⟩ := coherent_enqueueModifier sets h hm timeStamp
  simp only [dispatchModifierFlag]
  cases manager.isPressed m <;> cases hpressed : decide (m ∈ d.pressedModifierFlags)
  case true.false => exact hdown
  case false.true => exact hup
  all_goals exact h

@[simp] theorem pressedModifierFlags_enqueueModifier (d : KeyEventDispatcher) (m : ModifierFlag)
    (eventType : EventType) (q : Queue) (timeStamp : AbsoluteTime) :
    (d.enqueueModifier m eventType q timeStamp).1.pressedModifierFlags =
      d.pressedModifierFlags := by
  simp only [enqueueModifier, sendCapsLock, dispatchKeyUpEvent]
  split_ifs <;> rfl

/-- One round brings its flag up to date and leaves the others. -/
theorem mem_dispatchModifierFlag (manager : ModifierFlagManager) (timeStamp : AbsoluteTime)
    (s : KeyEventDispatcher × Queue) (m m' : ModifierFlag) :
    m' ∈ (dispatchModifierFlag manager timeStamp s m).1.pressedModifierFlags ↔
      if m' = m then manager.isPressed m = true else m' ∈ s.1.pressedModifierFlags := by
  obtain ⟨d, q⟩ := s
  simp only [dispatchModifierFlag]
  by_cases hm : m' = m
  · subst hm
    cases hmanager : manager.isPressed m' <;> by_cases hd : m' ∈ d.pressedModifierFlags <;>
      simp [hd]
  · cases manager.isPressed m <;> by_cases hd : m ∈ d.pressedModifierFlags <;> simp [hd, hm]

theorem coherent_foldl (sets : HidReport.ContainersAreSets) (manager : ModifierFlagManager)
    (timeStamp : AbsoluteTime) {flags : List ModifierFlag}
    (hflags : ∀ m ∈ flags, m ∈ dispatchedModifierFlags) {s : KeyEventDispatcher × Queue}
    (h : Coherent s) : Coherent (flags.foldl (dispatchModifierFlag manager timeStamp) s) := by
  induction flags generalizing s with
  | nil => exact h
  | cons m flags ih =>
      exact ih (fun m' hm' => hflags m' (List.mem_cons_of_mem _ hm'))
        (coherent_dispatchModifierFlag sets h manager timeStamp (hflags m List.mem_cons_self))

/-- After the loop the dispatcher holds exactly the modifiers that are pressed. -/
theorem mem_foldl (manager : ModifierFlagManager) (timeStamp : AbsoluteTime)
    (flags : List ModifierFlag) (s : KeyEventDispatcher × Queue) (m : ModifierFlag) :
    m ∈ (flags.foldl (dispatchModifierFlag manager timeStamp) s).1.pressedModifierFlags ↔
      if m ∈ flags then manager.isPressed m = true else m ∈ s.1.pressedModifierFlags := by
  induction flags generalizing s with
  | nil => simp
  | cons m' flags ih =>
      rw [List.foldl_cons, ih, mem_dispatchModifierFlag]
      by_cases hflags : m ∈ flags
      · simp [hflags]
      · by_cases hm : m = m' <;> simp [hm, hflags]

/-- What is reported follows the manager. -/
theorem coherent_dispatchModifierKeyEvent (sets : HidReport.ContainersAreSets)
    {d : KeyEventDispatcher} {q : Queue} (h : Coherent (d, q)) (manager : ModifierFlagManager)
    (timeStamp : AbsoluteTime) : Coherent (d.dispatchModifierKeyEvent manager q timeStamp) :=
  coherent_foldl sets manager timeStamp (fun _ hm => hm) h

/-- After `dispatch_modifier_key_event` the pressed flags are those of the manager. -/
theorem mem_dispatchModifierKeyEvent (d : KeyEventDispatcher) (q : Queue)
    (manager : ModifierFlagManager) (timeStamp : AbsoluteTime) {m : ModifierFlag}
    (hm : m ∈ dispatchedModifierFlags) :
    m ∈ (d.dispatchModifierKeyEvent manager q timeStamp).1.pressedModifierFlags ↔
      manager.isPressed m = true := by
  rw [dispatchModifierKeyEvent, mem_foldl, if_pos hm]

/-- The keys that a device leaves pressed are released one by one. -/
theorem coherent_dispatchKeyUpEventsByDeviceId (sets : HidReport.ContainersAreSets)
    {d : KeyEventDispatcher} {q : Queue} (h : Coherent (d, q)) (deviceId : DeviceId)
    (timeStamp : AbsoluteTime) :
    Coherent (d.dispatchKeyUpEventsByDeviceId deviceId q timeStamp) := by
  have hloop : ∀ (fuel : ℕ) (s : KeyEventDispatcher × Queue), Coherent s →
      Coherent (dispatchKeyUpEventsByDeviceIdFrom deviceId timeStamp fuel s) := by
    intro fuel
    induction fuel with
    | zero => exact fun _ hs => hs
    | succ fuel ih =>
        intro s hs
        rw [dispatchKeyUpEventsByDeviceIdFrom]
        split
        · exact ih _ (coherent_dispatchKeyUpEvent sets hs _ timeStamp)
        · exact hs
  exact hloop _ _ h

/-! ### The modifiers of the report -/

omit [MachTimebase] in
/-- `make_hid_report_modifiers`, in the container of the driver. -/
def makeHidReportModifiers (manager : ModifierFlagManager) : HidReport.Modifiers :=
  manager.makeHidReportModifiers.foldl HidReport.insertModifier HidReport.noModifiers

omit [MachTimebase] in
/-- The containers are sets, so that a modifier is in the report if it has been inserted. -/
theorem modifierExists_makeHidReportModifiers (sets : HidReport.ContainersAreSets)
    (manager : ModifierFlagManager) (r : HidReportModifier) :
    HidReport.modifierExists (makeHidReportModifiers manager) r = true ↔
      r ∈ manager.makeHidReportModifiers := by
  have hfold : ∀ (l : List HidReportModifier) (modifiers : HidReport.Modifiers),
      HidReport.modifierExists (l.foldl HidReport.insertModifier modifiers) r = true ↔
        r ∈ l ∨ HidReport.modifierExists modifiers r = true := by
    intro l
    induction l with
    | nil => simp
    | cons r' l ih =>
        intro modifiers
        rw [List.foldl_cons, ih, sets.modifierExists_insertModifier, Bool.or_eq_true,
          decide_eq_true_eq, List.mem_cons, ← or_assoc, or_comm (a := r ∈ l)]
  rw [makeHidReportModifiers, hfold, sets.modifierExists_noModifiers]
  simp

omit [HidReport] [MachTimebase] in
/-- The flag of a bit. -/
theorem exists_makeHidReportModifier (r : HidReportModifier) :
    ∃ m ∈ ModifierFlagManager.reportedModifierFlags, makeHidReportModifier m = some r := by
  cases r <;> simp [ModifierFlagManager.reportedModifierFlags, makeHidReportModifier]

omit [HidReport] [MachTimebase] in
/-- The report holds the modifiers that the manager calls pressed. -/
theorem mem_makeHidReportModifiers_iff (manager : ModifierFlagManager) {m : ModifierFlag}
    {r : HidReportModifier} (hm : m ∈ ModifierFlagManager.reportedModifierFlags)
    (hr : makeHidReportModifier m = some r) :
    r ∈ manager.makeHidReportModifiers ↔ manager.isPressed m = true := by
  simp only [ModifierFlagManager.makeHidReportModifiers, List.mem_filterMap, List.mem_filter]
  constructor
  · rintro ⟨m', ⟨-, hpressed⟩, hr'⟩
    rwa [eq_of_makeHidReportModifier hr hr']
  · exact fun hpressed => ⟨m, ⟨hm, hpressed⟩, hr⟩

/-- **After `dispatch_modifier_key_event` the keyboard report has the modifiers of the manager.** -/
theorem modifiers_dispatchModifierKeyEvent (sets : HidReport.ContainersAreSets)
    {d : KeyEventDispatcher} {q : Queue} (h : Coherent (d, q)) (manager : ModifierFlagManager)
    (timeStamp : AbsoluteTime) :
    (d.dispatchModifierKeyEvent manager q timeStamp).2.keyboardInput.modifiers =
      makeHidReportModifiers manager := by
  refine sets.modifiers_ext _ _ fun r => ?_
  obtain ⟨m, hm, hr⟩ := exists_makeHidReportModifier r
  rw [Bool.eq_iff_iff, modifierExists_makeHidReportModifiers sets,
    mem_makeHidReportModifiers_iff manager hm hr,
    (coherent_dispatchModifierKeyEvent sets h manager timeStamp).modifiers m r hr]
  refine mem_dispatchModifierKeyEvent d q manager timeStamp ?_
  cases m <;> simp_all [ModifierFlagManager.reportedModifierFlags, dispatchedModifierFlags]

/-! ### Runs -/

/-- The calls of the dispatcher and of `clear` of its queue.  Keys that are dispatched are not
modifiers. -/
inductive Operation
  | dispatchKeyDownEvent (deviceId : DeviceId) (e : MomentarySwitchEvent)
      (not_modifier : e.modifierFlag = false) (timeStamp : AbsoluteTime)
  | dispatchKeyUpEvent (e : MomentarySwitchEvent) (not_modifier : e.modifierFlag = false)
      (timeStamp : AbsoluteTime)
  | dispatchModifierKeyEvent (manager : ModifierFlagManager) (timeStamp : AbsoluteTime)
  | dispatchKeyUpEventsByDeviceId (deviceId : DeviceId) (timeStamp : AbsoluteTime)
  | insertPressedCapsLock
  | erasePressedCapsLock
  | clear

/-- One call. -/
def step (s : KeyEventDispatcher × Queue) : Operation → KeyEventDispatcher × Queue
  | .dispatchKeyDownEvent deviceId e _ timeStamp =>
    s.1.dispatchKeyDownEvent deviceId e.usagePair s.2 timeStamp
  | .dispatchKeyUpEvent e _ timeStamp => s.1.dispatchKeyUpEvent e.usagePair s.2 timeStamp
  | .dispatchModifierKeyEvent manager timeStamp =>
    s.1.dispatchModifierKeyEvent manager s.2 timeStamp
  | .dispatchKeyUpEventsByDeviceId deviceId timeStamp =>
    s.1.dispatchKeyUpEventsByDeviceId deviceId s.2 timeStamp
  | .insertPressedCapsLock => (s.1.insertPressedModifierFlag .capsLock, s.2)
  | .erasePressedCapsLock => (s.1.erasePressedModifierFlag .capsLock, s.2)
  | .clear => (s.1, s.2.clear)

omit [MachTimebase] in
/-- At first nothing is pressed and nothing reported. -/
theorem coherent_init (sets : HidReport.ContainersAreSets) :
    Coherent (({} : KeyEventDispatcher), ({} : Queue)) := by
  have hreported : ∀ p, Queue.reported {} p = false := fun p => by
    rw [Queue.reported]
    cases hkeys : Queue.keysOf {} p.usagePage with
    | none => rfl
    | some keys =>
        have hno : keys = HidReport.noKeys := by
          unfold Queue.keysOf at hkeys
          split_ifs at hkeys <;> exact (Option.some_injective _ hkeys).symm
        simp [hno, sets.keyExists_noKeys]
  refine ⟨List.nodup_nil, by simp, fun p _ _ => ?_, fun m r _ => ?_, fun e he => by cases he⟩
  · simp [hreported, Holds]
  · simp [sets.modifierExists_noModifiers]

/-- Every operation keeps dispatcher and report together. -/
theorem coherent_step (sets : HidReport.ContainersAreSets) (s : KeyEventDispatcher × Queue)
    (op : Operation) (h : Coherent s) : Coherent (step s op) := by
  cases op with
  | dispatchKeyDownEvent deviceId e hp t =>
      exact coherent_dispatchKeyDownEvent sets h hp deviceId t
  | dispatchKeyUpEvent e hp t => exact coherent_dispatchKeyUpEvent sets h _ t
  | dispatchModifierKeyEvent manager t => exact coherent_dispatchModifierKeyEvent sets h manager t
  | dispatchKeyUpEventsByDeviceId deviceId t =>
      exact coherent_dispatchKeyUpEventsByDeviceId sets h deviceId t
  | insertPressedCapsLock => exact h.of_flags fun m hm => by simp [hm]
  | erasePressedCapsLock => exact h.of_flags fun m hm => by simp [hm]
  | clear => exact h.of_queue rfl rfl fun e he => by cases he

theorem coherent_run (sets : HidReport.ContainersAreSets) (ops : List Operation) :
    Coherent (Machine.run step ({}, {}) ops) :=
  Machine.run_invariant (coherent_step sets) (coherent_init sets) ops

/-- **The accumulated reports are the state of the dispatcher**, after any calls: no key is pressed
twice; a key is in the key set of its usage page exactly when it is pressed; the modifier bits and
the fn key are those of the pressed flags, which are the manager's after a dispatch of modifiers;
and the repeating key is pressed. -/
theorem run_agrees (sets : HidReport.ContainersAreSets) (ops : List Operation) :
    let s := Machine.run step ({}, {}) ops
    let pressed := s.1.pressedKeys.map Prod.snd
    pressed.Nodup ∧
      (∀ p, (MomentarySwitchEvent.mk p).modifierFlag = false →
        p.usagePage ∈ Queue.reportedPages → (s.2.reported p = true ↔ p ∈ pressed)) ∧
      (∀ m r, makeHidReportModifier m = some r →
        (HidReport.modifierExists s.2.keyboardInput.modifiers r = true ↔
          m ∈ s.1.pressedModifierFlags)) ∧
      (HidReport.keyExists s.2.appleVendorTopCaseInput Usage.AppleVendorTopCase.keyboardFn = true ↔
        .fn ∈ s.1.pressedModifierFlags) ∧
      (∀ manager timeStamp,
        (step s (.dispatchModifierKeyEvent manager timeStamp)).2.keyboardInput.modifiers =
          makeHidReportModifiers manager) ∧
      ∀ e, s.2.keyboardRepeatDetector.repeatingKey = some e → e.usagePair ∈ pressed := by
  intro s pressed
  have h : Coherent s := coherent_run sets ops
  refine ⟨h.nodup, fun p hp hpage => ?_, h.modifiers, ?_,
    fun manager t => modifiers_dispatchModifierKeyEvent sets h manager t,
    fun e he => (h.repeating e he).2⟩
  · rw [h.reported p (modifierBit_eq_none hp) hpage, Holds, or_iff_left]
    rintro ⟨rfl, -⟩
    exact absurd hp (by decide)
  · have hfn := h.reported fnUsagePair (by decide) (by decide)
    rw [Holds, or_iff_right fun hmem => absurd (h.not_modifier _ hmem) (by decide)] at hfn
    exact hfn.trans (and_iff_right rfl)

end KeyEventDispatcher

namespace KeyEventDispatcher

/-- `run_agrees` with finite sets as the containers, after the key a and left shift are pressed. -/
theorem run_agrees_finsets :
    letI := HidReport.finsets
    letI : MachTimebase := ⟨1, 1⟩
    let s := Machine.run step ({}, {})
      [.dispatchKeyDownEvent 1 ⟨⟨UsagePage.keyboardOrKeypad, Usage.KeyboardOrKeypad.keyboardA⟩⟩
          (by decide) 0,
        .dispatchModifierKeyEvent ⟨[.make .increase .leftShift 1]⟩ 0]
    HidReport.modifierExists s.2.keyboardInput.modifiers .leftShift = true ↔
      .leftShift ∈ s.1.pressedModifierFlags :=
  letI := HidReport.finsets
  letI : MachTimebase := ⟨1, 1⟩
  (run_agrees HidReport.finsets_containersAreSets _).2.2.1 .leftShift .leftShift rfl

end KeyEventDispatcher

end PostEventToVirtualDevices

end Karabiner
