import Karabiner.Manipulator.Basic.Machine
import Karabiner.Manipulator.Basic.Presses

/-!
# Balanced posting

A press posts or owes both halves of every pair from the moment it is created (`Sound.balance`), and
it owes nothing after its first key_up that is not skipped (`Sound.settled`), which is at the latest
the key_up of its last from event (`Sound.posted`).  The timer of `to_if_held_down` defers new
key_ups, but only before that key_up: every key_up cancels it.
-/

namespace Karabiner

variable [Exprtk] [SystemClock] [MachTimebase]

namespace BasicDefinition

open EventSender

/-! ### When nothing is owed -/

/-- Extra events leave a settled press settled. -/
theorem settled_postExtra (front : Entry) (toEvents : List ToEventDefinition) {s : EventSender}
    (hs : s.current.Settled) : (postExtra front toEvents s).current.Settled := by
  have hlegal : s.current.Legal := by
    intro f hf
    rw [hs.2] at hf
    exact absurd hf (Finset.notMem_empty f)
  have hup := keeps_postFromMandatoryModifiersKeyUp front s
  have hextra := posts_postExtraToEvents front toEvents (s.postFromMandatoryModifiersKeyUp front)
  unfold postExtra
  refine ⟨?_, postFromMandatoryModifiersKeyDown_released front
    (hextra.toMoves.legal (hup.legal hlegal))⟩
  rw [postFromMandatoryModifiersKeyDown_eventsAtKeyUp, hextra.deferred,
    postFromMandatoryModifiersKeyUp_eventsAtKeyUp]
  exact hs.1

theorem settled_postExtraIfAny (front : Entry) (toEvents : List ToEventDefinition)
    {s : EventSender} (hs : s.current.Settled) :
    (postExtraIfAny front toEvents s).current.Settled := by
  unfold postExtraIfAny
  split_ifs
  · exact hs
  · exact settled_postExtra front toEvents hs

theorem settled_postToIfAlone (d : BasicDefinition) (front : Entry) {s : EventSender}
    (hs : s.current.Settled) : (d.postToIfAlone front s).current.Settled := by
  unfold postToIfAlone
  dsimp only
  split_ifs
  · exact settled_scopedFromKeyModifierFlagsState front
      (fun s hs => settled_postExtra front d.toIfAlone hs) hs
  · exact hs

/-- **The first key_up that is not skipped settles the press.** -/
theorem settled_postKeyUpOnce (d : BasicDefinition) (front : Entry) {s : EventSender}
    (hs : s.current.Legal) : (d.postKeyUpOnce front s).current.Settled := by
  let s' : EventSender := { s with current.keyUpPosted := true }
  have hlegal : (s'.postEventsAtKeyUp front).current.Legal :=
    (keeps_postEventsAtKeyUp front s').legal hs
  have hsettled :
      ((s'.postEventsAtKeyUp front).postFromMandatoryModifiersKeyDown front).current.Settled := by
    refine ⟨?_, postFromMandatoryModifiersKeyDown_released front hlegal⟩
    rw [postFromMandatoryModifiersKeyDown_eventsAtKeyUp, postEventsAtKeyUp_eventsAtKeyUp]
  exact settled_postExtraIfAny front d.toAfterKeyUp (settled_postToIfAlone d front hsettled)

end BasicDefinition

/-! ### Sound presses -/

namespace ManipulatedOriginalEvent

omit [Exprtk] [SystemClock] [MachTimebase] in
/-- What holds of a press all along. -/
structure Sound (m : ManipulatedOriginalEvent) : Prop where
  balance (c : Charge) : c.balance m = 0
  legal : m.Legal
  settled : m.keyUpPosted = true → m.Settled
  posted : m.fromEvents = ∅ → m.keyUpPosted = true

omit [Exprtk] [SystemClock] [MachTimebase] in
/-- A new press. -/
theorem sound_of_fresh {m : ManipulatedOriginalEvent} (hfrom : m.fromEvents ≠ ∅)
    (hposted : m.keyUpPosted = false) (hentries : m.posted = []) (hdeferred : m.eventsAtKeyUp = [])
    (hreleased : m.keyUpPostedFromMandatoryModifiers = ∅) : m.Sound where
  balance c := by
    rw [c.balance_of_settled ⟨hdeferred, hreleased⟩, hentries]
    rfl
  legal f hf := by
    rw [hreleased] at hf
    exact absurd hf (Finset.notMem_empty f)
  settled h := absurd (hposted.symm.trans h) (by decide)
  posted h := absurd h hfrom

omit [SystemClock] [MachTimebase] in
/-- The functions of `event_sender` keep a press sound before its key_up. -/
theorem Sound.of_keeps {s s' : EventSender} (h : EventSender.Keeps s s') (hs : s.current.Sound)
    (hposted : s.current.keyUpPosted = false) :
    s'.current.Sound ∧ s'.current.keyUpPosted = false := by
  have hframe : s'.current.keyUpPosted = false :=
    (congrArg ManipulatedOriginalEvent.keyUpPosted h.frame).trans hposted
  refine ⟨⟨fun c => (h.balance c).trans (hs.balance c), h.legal hs.legal, fun hs' => ?_,
    fun hfrom => ?_⟩, hframe⟩
  · exact absurd (hframe.symm.trans hs') (by decide)
  · have hfrom' : s.current.fromEvents = ∅ :=
      (congrArg ManipulatedOriginalEvent.fromEvents h.frame).symm.trans hfrom
    exact absurd (hposted.symm.trans (hs.posted hfrom')) (by decide)

/-- **A key_up keeps a press sound**, whichever from event it has erased. -/
theorem sound_postKeyUp (d : BasicDefinition) (front : Entry) {s : EventSender}
    (balance : ∀ c : Charge, c.balance s.current = 0) (legal : s.current.Legal)
    (settled : s.current.keyUpPosted = true → s.current.Settled) :
    (d.postKeyUp front s).current.Sound := by
  rcases d.postKeyUp_cases front s with ⟨-, hfrom, heq⟩ | ⟨hskip, hkeeps⟩
  · rw [heq]
    exact ⟨balance, legal, settled, fun h => absurd h hfrom⟩
  · have hposted : (d.postKeyUp front s).current.keyUpPosted = true :=
      congrArg ManipulatedOriginalEvent.keyUpPosted hkeeps.frame
    refine ⟨fun c => (hkeeps.balance c).trans (balance c), hkeeps.legal legal, fun _ => ?_,
      fun _ => hposted⟩
    have hnot : ¬ (decide (d.from_.simultaneousOptions.keyUpWhen = .all) &&
        decide (s.current.fromEvents ≠ ∅)) = true := by
      rcases hskip with h | h <;> simp [h]
    have honce :
        (if s.current.keyUpPosted then s else d.postKeyUpOnce front s).current.Settled := by
      split_ifs with h
      · exact settled h
      · exact d.settled_postKeyUpOnce front legal
    unfold BasicDefinition.postKeyUp
    dsimp only
    rw [if_neg hnot]
    split_ifs at honce ⊢ <;>
      first
        | exact honce
        | exact BasicDefinition.settled_postExtraIfAny front _ honce

end ManipulatedOriginalEvent

namespace Basic

/-! ### Sound manipulators -/

omit [Exprtk] [SystemClock] [MachTimebase] in
/-- All presses are sound, and a live timer of `to_if_held_down` is for a press before its key_up.
-/
structure Sound (b : Basic) : Prop where
  objects : ∀ (id : ℕ) (m : ManipulatedOriginalEvent), b.objects[id]? = some m → m.Sound
  le : ∀ id ∈ b.toIfHeldDown.pending, id ≤ b.toIfHeldDown.currentId
  live : b.definition.toIfHeldDown.isSome = true →
    b.toIfHeldDown.currentId ∈ b.toIfHeldDown.pending →
    ∀ id m, b.toIfHeldDown.currentManipulatedOriginalEvent = some id → b.objects[id]? = some m →
      m.keyUpPosted = false

namespace Sound

variable {b : Basic}

omit [Exprtk] [SystemClock] [MachTimebase] in
/-- Once the current id has moved past all pending ones, no timer is live. -/
theorem not_mem_of_lt (h : b.Sound) {id : ℕ} (hid : b.toIfHeldDown.currentId < id) :
    id ∉ b.toIfHeldDown.pending := fun hmem => absurd (h.le id hmem) (Nat.not_le.mpr hid)

omit [Exprtk] [SystemClock] [MachTimebase] in
/-- A press that is no longer alone stays sound. -/
theorem unsetAloneIfNeeded (h : b.Sound) (event : Event) (eventType : EventType) :
    (b.unsetAloneIfNeeded event eventType).Sound := by
  unfold Basic.unsetAloneIfNeeded
  split_ifs
  · refine ⟨fun id m hm => ?_, h.le, fun hsome hlive id m htarget hm => ?_⟩
    · simp only [mapObjects, List.getElem?_mapIdx, Option.map_eq_some_iff] at hm
      obtain ⟨m', hm', rfl⟩ := hm
      have hsound := h.objects id m' hm'
      split_ifs
      · exact ⟨hsound.balance, hsound.legal, hsound.settled, hsound.posted⟩
      · exact hsound
    · simp only [mapObjects, List.getElem?_mapIdx, Option.map_eq_some_iff] at hm
      obtain ⟨m', hm', rfl⟩ := hm
      have hlive := h.live hsome hlive id m' htarget hm'
      split_ifs
      · exact hlive
      · exact hlive
  · exact h

omit [Exprtk] [SystemClock] [MachTimebase] in
theorem cancelHeldDown (h : b.Sound) (front : Entry) : (b.cancelHeldDown front).Sound := by
  unfold Basic.cancelHeldDown
  split_ifs
  · exact ⟨h.objects, fun id hid => (h.le id hid).trans (Nat.le_succ _),
      fun _ hlive => absurd hlive (h.not_mem_of_lt (Nat.lt_succ_self _))⟩
  · exact h

omit [Exprtk] [SystemClock] [MachTimebase] in
/-- A timer is set up for a press before its key_up; otherwise all timers are cancelled. -/
theorem setupHeldDown {front : Entry} {id : ℕ}
    (hobjects : ∀ (id : ℕ) (m : ManipulatedOriginalEvent), b.objects[id]? = some m → m.Sound)
    (hle : ∀ id ∈ b.toIfHeldDown.pending, id ≤ b.toIfHeldDown.currentId)
    (hid : front.eventType = .keyDown → ∀ m, b.objects[id]? = some m → m.keyUpPosted = false) :
    (b.setupHeldDown front id).Sound := by
  have hnot : b.toIfHeldDown.currentId + 1 ∉ b.toIfHeldDown.pending := fun hmem =>
    absurd (hle _ hmem) (by omega)
  have hle' : ∀ id ∈ b.toIfHeldDown.pending, id ≤ b.toIfHeldDown.currentId + 1 := fun id hid =>
    (hle id hid).trans (Nat.le_succ _)
  unfold Basic.setupHeldDown
  cases hdef : b.definition.toIfHeldDown with
  | none =>
      refine ⟨hobjects, hle, fun hsome => ?_⟩
      rw [hdef] at hsome
      cases hsome
  | some toEvents =>
      dsimp only
      split_ifs with hskip
      · exact ⟨hobjects, hle', fun _ hlive => absurd hlive hnot⟩
      · refine ⟨hobjects, fun id' hid' => ?_, fun _ _ id' m htarget hm => ?_⟩
        · rcases List.mem_append.mp hid' with hid' | hid'
          · exact hle' id' hid'
          · exact (List.mem_singleton.mp hid').le
        · obtain rfl : id = id' := Option.some.inj htarget
          have hdown : front.eventType = .keyDown := by
            by_contra hne
            exact hskip (by simp [hne])
          exact hid hdown m hm

omit [Exprtk] [SystemClock] [MachTimebase] in
theorem setupDelayedAction (h : b.Sound) (front : Entry) (id : ℕ) :
    (b.setupDelayedAction front id).Sound := by
  unfold Basic.setupDelayedAction
  split
  · exact h
  · dsimp only
    split_ifs
    · exact h
    · exact ⟨h.objects, h.le, h.live⟩

end Sound

/-! ### Steps -/

section Send

omit [SystemClock] [MachTimebase]

variable {b : Basic} {id : ℕ} {output : Output} {f : EventSender → EventSender}

/-- Posting on behalf of an object changes this object only. -/
theorem getElem?_send {j : ℕ} {m' : ManipulatedOriginalEvent}
    (hm' : (b.send id output f).1.objects[j]? = some m') :
    j ≠ id ∧ b.objects[j]? = some m' ∨
      j = id ∧ ∃ m, b.objects[id]? = some m ∧
        m' = (f { current := m, output := output }).current := by
  unfold send at hm'
  cases hm : b.objects[id]? with
  | none =>
      simp only [hm] at hm'
      refine Or.inl ⟨?_, hm'⟩
      rintro rfl
      exact absurd (hm.symm.trans hm') (by simp)
  | some m =>
      obtain ⟨hlt, -⟩ := List.getElem?_eq_some_iff.mp hm
      simp only [hm] at hm'
      by_cases hj : j = id
      · subst hj
        rw [List.getElem?_set_self hlt] at hm'
        exact Or.inr ⟨rfl, m, rfl, (Option.some.inj hm').symm⟩
      · rw [List.getElem?_set_ne (Ne.symm hj)] at hm'
        exact Or.inl ⟨hj, hm'⟩

/-- What is posted for a press leaves the timer and the definition alone. -/
theorem send_toIfHeldDown (b : Basic) (id : ℕ) (output : Output) (f : EventSender → EventSender) :
    (b.send id output f).1.toIfHeldDown = b.toIfHeldDown ∧
      (b.send id output f).1.definition = b.definition := by
  unfold send
  cases b.objects[id]? <;> exact ⟨rfl, rfl⟩

end Send

omit [SystemClock] [MachTimebase] in
/-- The end of `manipulate`. -/
theorem sound_finish {b : Basic} {front : Entry} {id : ℕ} {f : Entry → EventSender → EventSender}
    {output : Output} (hle : ∀ id ∈ b.toIfHeldDown.pending, id ≤ b.toIfHeldDown.currentId)
    (hothers : ∀ (j : ℕ) (m : ManipulatedOriginalEvent), j ≠ id → b.objects[j]? = some m → m.Sound)
    (hf : ∀ front m, b.objects[id]? = some m →
      (f front { current := m, output := output }).current.Sound)
    (hposted : front.eventType = .keyDown → ∀ front m, b.objects[id]? = some m →
      (f front { current := m, output := output }).current.keyUpPosted = false) :
    (b.finish front id f output).basic.Sound := by
  have htimer := (b.send_toIfHeldDown id output (f { front with validity := .invalid })).1
  unfold finish
  dsimp only
  refine Sound.setupDelayedAction
    (Sound.setupHeldDown (fun j m hm => ?_) ?_ fun hdown m hm => ?_) _ _
  · rcases getElem?_send hm with ⟨hj, hm'⟩ | ⟨rfl, m', hm', rfl⟩
    · exact hothers j m hj hm'
    · exact hf _ m' hm'
  · rw [htimer]
    exact hle
  · rcases getElem?_send hm with ⟨hj, -⟩ | ⟨-, m', hm', rfl⟩
    · exact absurd rfl hj
    · exact hposted hdown _ m' hm'

/-- A capture creates a sound press. -/
theorem sound_capture {b : Basic} (h : b.Sound) (front : Entry) {fromEvents : Finset FromEvent}
    (hfrom : fromEvents ≠ ∅) (fromMandatoryModifiers : List ModifierFlag) (output : Output) :
    (b.capture front fromEvents fromMandatoryModifiers output).basic.Sound := by
  have hkeeps (m : ManipulatedOriginalEvent) (hfresh : m.Sound) (hposted : m.keyUpPosted = false)
      (front : Entry) := ManipulatedOriginalEvent.Sound.of_keeps
    (BasicDefinition.keeps_postTo front b.definition.to_ { current := m, output := output })
    hfresh hposted
  have hlast {m m' : ManipulatedOriginalEvent}
      (hm : (b.objects ++ [m])[b.objects.length]? = some m') : m' = m := by
    rw [List.getElem?_concat_length] at hm
    exact (Option.some.inj hm).symm
  unfold capture
  refine sound_finish h.le (fun j m hj hm => ?_) (fun front m hm => ?_) (fun _ front m hm => ?_)
  · have hlt : j < b.objects.length := by
      have hle := (List.getElem?_eq_some_iff.mp hm).1
      simp only [pushBack, List.length_append, List.length_singleton] at hle
      omega
    simp only [pushBack, List.getElem?_append_left hlt] at hm
    exact h.objects j m hm
  · obtain rfl := hlast hm
    exact (hkeeps _ (ManipulatedOriginalEvent.sound_of_fresh hfrom rfl rfl rfl rfl) rfl front).1
  · obtain rfl := hlast hm
    exact (hkeeps _ (ManipulatedOriginalEvent.sound_of_fresh hfrom rfl rfl rfl rfl) rfl front).2

/-- The case of a key_up that releases a from event. -/
theorem sound_released {b : Basic} (h : b.Sound) {front : Entry} (up : front.eventType = .keyUp)
    (id : ℕ) (output : Output) :
    ((b.eraseFromEvent id front.fromEvent).finish front id b.definition.postKeyUp
      output).basic.Sound := by
  unfold eraseFromEvent
  cases hm : b.objects[id]? with
  | none =>
      refine sound_finish h.le (fun j m _ hm => h.objects j m hm) (fun front m hm' => ?_)
        fun hdown => absurd (hdown.symm.trans up) (by decide)
      exact absurd (hm.symm.trans hm') (by simp)
  | some m =>
      have hsound := h.objects id m hm
      refine sound_finish h.le (fun j m' hj hm' => ?_) (fun front m' hm' => ?_)
        fun hdown => absurd (hdown.symm.trans up) (by decide)
      · rw [List.getElem?_set_ne (Ne.symm hj)] at hm'
        exact h.objects j m' hm'
      · obtain ⟨hlt, -⟩ := List.getElem?_eq_some_iff.mp hm
        rw [List.getElem?_set_self hlt] at hm'
        obtain rfl := Option.some.inj hm'
        exact ManipulatedOriginalEvent.sound_postKeyUp b.definition front hsound.balance
          hsound.legal hsound.settled

omit [Exprtk] [SystemClock] [MachTimebase] in
/-- What is detected is at least one event. -/
theorem ne_empty_of_detect {d : FromEventDefinition} {endTimeStamp : AbsoluteTime}
    {entries : List Entry} {fromEvents : Finset FromEvent} {needsWaitKeyUp : Bool}
    (h : d.detect endTimeStamp entries = some (fromEvents, needsWaitKeyUp)) : fromEvents ≠ ∅ := by
  unfold FromEventDefinition.detect at h
  cases hs : scan d endTimeStamp entries {} with
  | none => simp [hs] at h
  | some s =>
      simp only [hs] at h
      split_ifs at h with hempty <;> cases h <;> exact hempty

/-- Every entry keeps a manipulator without `to_delayed_action` sound. -/
theorem sound_manipulate {b : Basic} (h : b.Sound) (hdelayed : b.definition.toDelayedAction = none)
    (front : Entry) (rest : List Entry) (output : Output) (now : AbsoluteTime) :
    (b.manipulate front rest output now).basic.Sound := by
  have hobserve : b.observe front output =
      ((b.unsetAloneIfNeeded front.event front.eventType).cancelHeldDown front, output) := by
    have hdef := (b.sameHeld_unsetAloneIfNeeded front.event front.eventType).trans
      (sameHeld_cancelHeldDown _ front)
    unfold observe cancelDelayedAction
    rw [hdef.definition, hdelayed]
  have h₁ := (h.unsetAloneIfNeeded front.event front.eventType).cancelHeldDown front
  have hcases := b.manipulates_manipulate front rest output now
  rw [hobserve] at hcases
  generalize b.manipulate front rest output now = r at hcases
  cases hcases with
  | passed => exact h₁
  | waits => exact h₁
  | captured _ _ _ _ _ _ hdetect => exact sound_capture h₁ _ (ne_empty_of_detect hdetect) _ _
  | @released id _ up => exact sound_released h₁ up id output

/-- A timer that fires is for a press before its key_up. -/
theorem sound_fireHeldDown {b : Basic} (h : b.Sound) (heldDownId : ℕ) (output : Output) :
    (b.fireHeldDown heldDownId output).1.Sound := by
  have hsound : Sound
      { b with toIfHeldDown.pending := b.toIfHeldDown.pending.erase heldDownId } :=
    ⟨h.objects, fun id hid => h.le id (List.mem_of_mem_erase hid),
      fun hsome hlive => h.live hsome (List.mem_of_mem_erase hlive)⟩
  have hcases := b.firesHeldDown heldDownId output
  generalize b.fireHeldDown heldDownId output = r at hcases
  cases hcases with
  | cancelled => exact h
  | idle => exact hsound
  | @posts b₁ toEvents front id herased hdef hpending hid _ htarget =>
      have h₁ : b₁.Sound := herased ▸ hsound
      have hobjects : b₁.objects = b.objects := by rw [herased]
      have hbefore (m : ManipulatedOriginalEvent) (hm : b₁.objects[id]? = some m) :=
        ManipulatedOriginalEvent.Sound.of_keeps
          (BasicDefinition.keeps_postHeldDown front toEvents { current := m, output := output })
          (h₁.objects id m hm)
          (h.live (Option.isSome_of_eq_some hdef) (by rwa [hid]) id m htarget (hobjects ▸ hm))
      obtain ⟨htimer, hdefinition⟩ :=
        b₁.send_toIfHeldDown id output (BasicDefinition.postHeldDown front toEvents)
      refine ⟨fun j m hm => ?_, ?_, fun hsome hlive j m htarget' hm => ?_⟩
      · rcases getElem?_send hm with ⟨-, hm'⟩ | ⟨-, m', hm', rfl⟩
        · exact h₁.objects j m hm'
        · exact (hbefore m' hm').1
      · rw [htimer]
        exact h₁.le
      · rw [htimer] at hlive htarget'
        rcases getElem?_send hm with ⟨-, hm'⟩ | ⟨-, m', hm', rfl⟩
        · exact h₁.live (hdefinition ▸ hsome) hlive j m htarget' hm'
        · exact (hbefore m' hm').2

/-- A step that ungrabs no device keeps a manipulator without `to_delayed_action` sound. -/
theorem sound_step {s : State} (h : s.basic.Sound)
    (hdelayed : s.basic.definition.toDelayedAction = none) {i : Input}
    (hi : ∀ deviceId, i ≠ .deviceUngrabbed deviceId) : (step s i).basic.Sound := by
  cases i with
  | manipulate front rest now => exact sound_manipulate h hdelayed front rest s.output now
  | deviceUngrabbed deviceId => exact absurd rfl (hi deviceId)
  | pointingDeviceEventFromEventTap front =>
      exact h.unsetAloneIfNeeded front.originalEvent front.eventType
  | setValidity validity => exact ⟨h.objects, h.le, h.live⟩
  | fireHeldDown id => exact sound_fireHeldDown h id s.output
  | fireDelayedAction id =>
      have hstep : (step s (.fireDelayedAction id)).basic =
        (s.basic.fireDelayedAction id s.output).1 := rfl
      rw [hstep]
      have hcases := s.basic.firesDelayedAction id s.output
      generalize s.basic.fireDelayedAction id s.output = r at hcases
      cases hcases with
      | cancelled => exact h
      | idle => exact ⟨h.objects, h.le, h.live⟩
      | posts _ hdefinition =>
          rw [hdelayed] at hdefinition
          cases hdefinition
  | outside output => exact h

/-- Every reachable state is sound, if there is no delayed action and no device is ungrabbed. -/
theorem sound_run (definition : BasicDefinition) (hdelayed : definition.toDelayedAction = none)
    (output : Output) {is : List Input}
    (hnone : ∀ i ∈ is, ∀ deviceId, i ≠ .deviceUngrabbed deviceId) :
    (Machine.run step (.initial definition output) is).basic.Sound := by
  induction is using List.reverseRecOn with
  | nil => exact ⟨by simp [State.initial], by simp [State.initial], by simp [State.initial]⟩
  | append_singleton is i ih =>
      rw [Machine.run_concat]
      refine sound_step (ih fun i hi => hnone i (List.mem_append_left _ hi)) ?_
        (hnone i (List.mem_append_right _ (List.mem_singleton_self i)))
      rw [(run_spec definition output is).1]
      exact hdelayed

end Basic

/-! ### Counting entries -/

section Count

omit [Exprtk] [SystemClock] [MachTimebase]

/-- Count some events: a key_down adds one, a key_up takes one away. -/
def Charge.ofEvents (p : Event → Bool) : Charge where
  charge e eventType :=
    if p e then
      match eventType with
      | .keyDown => 1
      | .keyUp => -1
      | .single => 0
    else 0
  pair e := by cases p e <;> rfl
  capsLock := by
    cases p (.stickyModifier .capsLock .on) <;> cases p (.stickyModifier .capsLock .off) <;> rfl

/-- Count what is posted in place of the `caps_lock` key. -/
def Charge.ofCapsLock : Charge where
  charge e eventType :=
    if eventType = .single then
      if e = .stickyModifier .capsLock .on then 1
      else if e = .stickyModifier .capsLock .off then -1
      else 0
    else 0
  pair e := rfl
  capsLock := by decide

/-- The charge of events counts their key_downs less their key_ups. -/
theorem Charge.sum_ofEvents (p : Event → Bool) (entries : List Entry) :
    (entries.map fun e => (Charge.ofEvents p).charge e.event e.eventType).sum =
      (entries.countP (fun e => p e.event && e.eventType = .keyDown) : ℤ) -
        entries.countP fun e => p e.event && e.eventType = .keyUp := by
  induction entries with
  | nil => rfl
  | cons e es ih =>
      rw [List.map_cons, List.sum_cons, ih, List.countP_cons, List.countP_cons]
      cases hp : p e.event with
      | false => simp [Charge.ofEvents, hp]
      | true =>
          simp only [Charge.ofEvents, hp, if_true, Bool.true_and]
          cases e.eventType <;> simp <;> ring

theorem Charge.sum_ofCapsLock (entries : List Entry) :
    (entries.map fun e => Charge.ofCapsLock.charge e.event e.eventType).sum =
      (entries.countP (fun e =>
          e.event = .stickyModifier .capsLock .on && e.eventType = .single) : ℤ) -
        entries.countP fun e =>
          e.event = .stickyModifier .capsLock .off && e.eventType = .single := by
  induction entries with
  | nil => rfl
  | cons e es ih =>
      rw [List.map_cons, List.sum_cons, ih, List.countP_cons, List.countP_cons]
      by_cases htype : e.eventType = .single
      · by_cases hon : e.event = .stickyModifier .capsLock .on
        · simp [Charge.ofCapsLock, htype, hon]
          ring
        · by_cases hoff : e.event = .stickyModifier .capsLock .off
          · simp [Charge.ofCapsLock, htype, hoff]
            ring
          · simp [Charge.ofCapsLock, htype, hon, hoff]
      · simp [Charge.ofCapsLock, htype]

namespace ManipulatedOriginalEvent

/-- How many entries of some events and of one type have been posted. -/
def postedCount (m : ManipulatedOriginalEvent) (p : Event → Bool) (eventType : EventType) : ℕ :=
  m.posted.countP fun e => p e.event && e.eventType = eventType

/-- The events of a modifier key. -/
def isKeyOf (flag : ModifierFlag) : Event → Bool
  | .momentarySwitchEvent e => e.makeModifierFlag = some flag
  | _ => false

end ManipulatedOriginalEvent

end Count

namespace Basic

/-- **Balanced posting.**  When key_ups have erased all from events of a press of a manipulator
without `to_delayed_action`, the press owes nothing, every event has been posted as often as a
key_down as it has been posted as a key_up, so has every modifier key, and the sticky modifiers
posted in place of `caps_lock` cancel. -/
theorem run_balanced (definition : BasicDefinition) (hdelayed : definition.toDelayedAction = none)
    (output : Output) (is : List Input)
    (hnone : ∀ i ∈ is, ∀ deviceId, i ≠ .deviceUngrabbed deviceId) :
    ∀ m ∈ (Machine.run step (.initial definition output) is).basic.objects, m.fromEvents = ∅ →
      m.eventsAtKeyUp = [] ∧ m.keyUpPostedFromMandatoryModifiers = ∅ ∧
        (∀ event : Event, m.postedCount (· = event) .keyDown = m.postedCount (· = event) .keyUp) ∧
        (∀ flag : ModifierFlag,
          m.postedCount (ManipulatedOriginalEvent.isKeyOf flag) .keyDown =
            m.postedCount (ManipulatedOriginalEvent.isKeyOf flag) .keyUp) ∧
        m.postedCount (· = .stickyModifier .capsLock .on) .single =
          m.postedCount (· = .stickyModifier .capsLock .off) .single := by
  intro m hm hfrom
  obtain ⟨id, hid⟩ := List.mem_iff_getElem?.mp hm
  have hsound := (sound_run definition hdelayed output hnone).objects id m hid
  have hsettled := hsound.settled (hsound.posted hfrom)
  have hsum (c : Charge) : (m.posted.map fun e => c.charge e.event e.eventType).sum = 0 :=
    (c.balance_of_settled hsettled).symm.trans (hsound.balance c)
  have hevents (p : Event → Bool) : m.postedCount p .keyDown = m.postedCount p .keyUp := by
    have h := hsum (.ofEvents p)
    rw [Charge.sum_ofEvents p] at h
    unfold ManipulatedOriginalEvent.postedCount
    omega
  refine ⟨hsettled.1, hsettled.2, fun event => hevents _, fun flag => hevents _, ?_⟩
  have h := hsum .ofCapsLock
  rw [Charge.sum_ofCapsLock, sub_eq_zero, Nat.cast_inj] at h
  exact h

end Basic

/-! ### A key that is mapped -/

section Mapped

omit [Exprtk] [SystemClock] [MachTimebase]

/-- A manipulator from the key `a` to one event. -/
def mapped (d : EventDefinition) : BasicDefinition where
  from_ :=
    { eventDefinitions := [.momentarySwitchEvent ⟨⟨UsagePage.keyboardOrKeypad, 4⟩⟩] }
  to_ := [{ eventDefinition := d }]

/-- The key `a` goes down or up. -/
def typed (eventType : EventType) : Entry :=
  let e : Event := .momentarySwitchEvent ⟨⟨UsagePage.keyboardOrKeypad, 4⟩⟩
  ⟨1, ⟨0, 0⟩, e, eventType, e, .original, false, .valid⟩

end Mapped

namespace Basic

omit [SystemClock] [MachTimebase] in
/-- The key `a` is pressed and released. -/
def typedInputs : List Input :=
  [.manipulate (typed .keyDown) [] 0, .manipulate (typed .keyUp) [] 0]

omit [Exprtk] [SystemClock] [MachTimebase] in
/-- The key `b`. -/
def keyB : MomentarySwitchEvent := ⟨⟨UsagePage.keyboardOrKeypad, 5⟩⟩

omit [Exprtk] [SystemClock] [MachTimebase] in
/-- `a` is mapped to `b` with `left_shift`. -/
def mappedShifted : BasicDefinition :=
  { mapped (.momentarySwitchEvent keyB) with
    to_ := [{ eventDefinition := .momentarySwitchEvent keyB, modifiers := {.leftShift} }] }

omit [Exprtk] [SystemClock] [MachTimebase] in
/-- When `a` is released, its press has posted `b` down once and owes nothing, and everything it has
posted cancels. -/
theorem run_balanced_mapped :
    ∃ (_ : Exprtk) (_ : SystemClock) (_ : MachTimebase),
      ∃ m ∈ (Machine.run step (.initial mappedShifted ⟨{}, World.initial⟩)
          typedInputs).basic.objects,
        m.postedCount (· = .momentarySwitchEvent keyB) .keyDown = 1 ∧
          m.eventsAtKeyUp = [] ∧ m.keyUpPostedFromMandatoryModifiers = ∅ ∧
          (∀ event : Event,
            m.postedCount (· = event) .keyDown = m.postedCount (· = event) .keyUp) ∧
          (∀ flag : ModifierFlag,
            m.postedCount (ManipulatedOriginalEvent.isKeyOf flag) .keyDown =
              m.postedCount (ManipulatedOriginalEvent.isKeyOf flag) .keyUp) ∧
          m.postedCount (· = .stickyModifier .capsLock .on) .single =
            m.postedCount (· = .stickyModifier .capsLock .off) .single := by
  have hall := @run_balanced .singleVariable ⟨fun _ => 0⟩ ⟨1, 1⟩ mappedShifted rfl
    (@Output.mk .singleVariable {} (@World.initial .singleVariable)) (@typedInputs .singleVariable)
    (by simp [typedInputs])
  refine ⟨.singleVariable, ⟨fun _ => 0⟩, ⟨1, 1⟩, by_contra fun hnone => ?_⟩
  have hposted := fun m hm hfrom (hposted : m.postedCount (· = .momentarySwitchEvent keyB)
    .keyDown = 1) => hnone ⟨m, hm, hposted, hall m hm hfrom⟩
  revert hposted
  decide

omit [Exprtk] [SystemClock] [MachTimebase] in
/-- A press that is mapped to a sticky modifier of `caps_lock` posts it as a key_down and a key_up,
and both are sticky-on entries. -/
theorem not_balanced_stickyModifier :
    ∃ (_ : Exprtk) (_ : SystemClock) (_ : MachTimebase),
      ¬ ∀ (definition : BasicDefinition) (output : Output) (is : List Input),
        definition.toDelayedAction = none →
        (∀ i ∈ is, ∀ deviceId, i ≠ .deviceUngrabbed deviceId) →
        ∀ m ∈ (Machine.run step (.initial definition output) is).basic.objects,
          m.fromEvents = ∅ →
          (m.posted.countP fun e => e.event = .stickyModifier .capsLock .on) =
            m.posted.countP fun e => e.event = .stickyModifier .capsLock .off := by
  refine ⟨.singleVariable, ⟨fun _ => 0⟩, ⟨1, 1⟩, fun h => ?_⟩
  have hcount := h (mapped (.stickyModifier .capsLock .on))
    (@Output.mk .singleVariable {} (@World.initial .singleVariable)) (@typedInputs .singleVariable)
    rfl (by simp [typedInputs])
  revert hcount
  decide

end Basic

end Karabiner
