import Karabiner.Manipulator.Basic.Presses
import Mathlib.Logic.Relation

/-!
# What a press sends

Whatever the lists of a rule say, the functions of `event_sender` do only four things: they post an
event, they defer one to the key_up, they wait for a hold down time, and they change what is not
posted (`Act`).  `Sends` is a run of such acts in which every event satisfies `P` and every hold
down time satisfies `H`; each function of `event_sender` and each part of `manipulate` that posts is
such a run, with `P` and `H` read off the lists of the rule.

* `Batch` and `Sends.exists_batch` — what a run appends to the output queue: entries whose events
  satisfy `P`, one time unit or more apart.
* `Sends.deferred` — what it leaves to the key_up satisfies `P` as well.
-/

namespace Karabiner

variable [Exprtk] [SystemClock] [MachTimebase]

namespace EventSender

/-! ### Acts -/

/-- A change of what is not posted.  Deferred events may be dropped. -/
structure Silent (s s' : EventSender) : Prop where
  posted : s'.current.posted = s.current.posted
  deferred : s'.current.eventsAtKeyUp ⊆ s.current.eventsAtKeyUp
  events : s'.output.queue.events = s.output.queue.events
  queueDelay : s'.output.queue.timeStampDelay = s.output.queue.timeStampDelay
  delay : s'.timeStampDelay = s.timeStampDelay

/-- One thing the functions of `event_sender` do for the front entry. -/
inductive Act (front : Entry) (P : Event → Prop) (H : ℤ → Prop) (s : EventSender) :
    EventSender → Prop
  | post (e : EventAtKeyUp) (he : P e.event) : Act front P H s (s.post front.eventTimeStamp e)
  | defer (e : EventAtKeyUp) (he : P e.event) : Act front P H s (s.emplaceBackEventAtKeyUp e)
  | hold (milliseconds : ℤ) (h : H milliseconds) :
      Act front P H s
        { s with timeStampDelay := s.timeStampDelay + makeAbsoluteTimeDuration milliseconds }
  | silent {s' : EventSender} (h : Silent s s') : Act front P H s s'

/-- A run of acts. -/
def Sends (front : Entry) (P : Event → Prop) (H : ℤ → Prop) : EventSender → EventSender → Prop :=
  Relation.ReflTransGen (Act front P H)

variable {front : Entry} {P : Event → Prop} {H : ℤ → Prop}

theorem Sends.trans {s s' s'' : EventSender} (h : Sends front P H s s')
    (h' : Sends front P H s' s'') : Sends front P H s s'' :=
  Relation.ReflTransGen.trans h h'

theorem Sends.refl (s : EventSender) : Sends front P H s s := Relation.ReflTransGen.refl

/-- One act is a run of one. -/
theorem Act.sends {s s' : EventSender} (h : Act front P H s s') : Sends front P H s s' :=
  Relation.ReflTransGen.single h

/-- A silent change is a run of one act that posts nothing. -/
theorem Silent.sends {s s' : EventSender} (h : Silent s s') : Sends front P H s s' :=
  (Act.silent h).sends

/-- A loop whose body only sends allowed events sends allowed events only. -/
theorem sends_foldl {α : Type} {f : EventSender → α → EventSender} {l : List α}
    (h : ∀ a ∈ l, ∀ s, Sends front P H s (f s a)) (s : EventSender) :
    Sends front P H s (l.foldl f s) := by
  induction l generalizing s with
  | nil => exact .refl s
  | cons a l ih =>
      exact (h a List.mem_cons_self s).trans (ih (fun b hb => h b (List.mem_cons_of_mem a hb)) _)

/-- What a run leaves to the key_up. -/
theorem Sends.deferred {s s' : EventSender} (h : Sends front P H s s')
    (hs : ∀ e ∈ s.current.eventsAtKeyUp, P e.event) :
    ∀ e ∈ s'.current.eventsAtKeyUp, P e.event := by
  induction h with
  | refl => exact hs
  | tail _ hact ih =>
      cases hact with
      | post e he => exact ih
      | defer e he =>
          intro e' he'
          rcases List.mem_append.mp he' with he' | he'
          · exact ih e' he'
          · rw [List.mem_singleton.mp he']
            exact he
      | hold milliseconds hm => exact ih
      | silent hsilent => exact fun e he => ih e (hsilent.deferred he)

/-! ### What a run appends -/

/-- The entries that are posted between two states. -/
structure Batch (front : Entry) (P : Event → Prop) (s s' : EventSender) (new : List Entry) :
    Prop where
  posted : s'.current.posted = s.current.posted ++ new
  events : s'.output.queue.events = s.output.queue.events ++ new.map s.output.queue.delay
  queueDelay : s'.output.queue.timeStampDelay = s.output.queue.timeStampDelay
  allowed : ∀ e ∈ new, P e.event

omit [Exprtk] [SystemClock] [MachTimebase] in
/-- The delay of a queue depends on its time stamp delay only. -/
theorem delay_congr {q q' : Queue} (h : q'.timeStampDelay = q.timeStampDelay) :
    q'.delay = q.delay := by
  funext e
  rw [Queue.delay, Queue.delay, h]

/-- **What a run appends**: entries with allowed events.  When no hold down time is negative they
follow each other one time unit or more apart, within the time stamp delay they have used. -/
theorem Sends.exists_batch {s s' : EventSender} (h : Sends front P H s s') :
    ∃ new, Batch front P s s' new ∧
      ((∀ milliseconds, H milliseconds → 0 ≤ milliseconds) →
        s.timeStampDelay ≤ s'.timeStampDelay ∧
        (new.Pairwise fun e e' => e.eventTimeStamp.timeStamp < e'.eventTimeStamp.timeStamp) ∧
        ∀ e ∈ new, front.eventTimeStamp.timeStamp + s.timeStampDelay ≤ e.eventTimeStamp.timeStamp ∧
          e.eventTimeStamp.timeStamp < front.eventTimeStamp.timeStamp + s'.timeStampDelay) := by
  induction h with
  | refl =>
      exact ⟨[], ⟨by simp, by simp, rfl, by simp⟩, fun _ => ⟨le_refl _, List.Pairwise.nil, by simp⟩⟩
  | @tail t t' _ hact ih =>
      obtain ⟨new, hbatch, htimes⟩ := ih
      cases hact with
      | post e he =>
          let entry := e.makeEntry { front.eventTimeStamp with
            timeStamp := front.eventTimeStamp.timeStamp + t.timeStampDelay }
          refine ⟨new ++ [entry], ⟨?_, ?_, hbatch.queueDelay, ?_⟩, fun hH => ?_⟩
          · show t.current.posted ++ [entry] = _
            rw [hbatch.posted, List.append_assoc]
          · show (t.output.emplaceBackEntry entry).queue.events = _
            rw [Output.emplaceBackEntry_events, hbatch.events, delay_congr hbatch.queueDelay,
              List.map_append, List.append_assoc]
            rfl
          · intro e' he'
            rcases List.mem_append.mp he' with he' | he'
            · exact hbatch.allowed e' he'
            · rw [List.mem_singleton.mp he']
              exact he
          · obtain ⟨hle, hpairwise, hbounds⟩ := htimes hH
            have hdelay : (t.post front.eventTimeStamp e).timeStampDelay =
                t.timeStampDelay + 1 := rfl
            have hlt := lt_add_one t.timeStampDelay
            rw [hdelay]
            refine ⟨hle.trans hlt.le, ?_, fun e' he' => ?_⟩
            · refine List.pairwise_append.mpr ⟨hpairwise, List.pairwise_singleton _ _, ?_⟩
              intro e' he' e'' he''
              rw [List.mem_singleton.mp he'']
              exact (hbounds e' he').2
            · rcases List.mem_append.mp he' with he' | he'
              · obtain ⟨hlower, hupper⟩ := hbounds e' he'
                exact ⟨hlower, hupper.trans (add_lt_add_right hlt _)⟩
              · rw [List.mem_singleton.mp he']
                exact ⟨add_le_add_right hle _, add_lt_add_right hlt _⟩
      | defer e he => exact ⟨new, ⟨hbatch.posted, hbatch.events, hbatch.queueDelay,
          hbatch.allowed⟩, htimes⟩
      | hold milliseconds hm =>
          refine ⟨new, ⟨hbatch.posted, hbatch.events, hbatch.queueDelay, hbatch.allowed⟩,
            fun hH => ?_⟩
          obtain ⟨hle, hpairwise, hbounds⟩ := htimes hH
          have hgrow := le_add_of_nonneg_right (a := t.timeStampDelay)
            (makeAbsoluteTimeDuration_nonneg (hH milliseconds hm))
          refine ⟨hle.trans hgrow, hpairwise, fun e he => ?_⟩
          obtain ⟨hlower, hupper⟩ := hbounds e he
          exact ⟨hlower, hupper.trans_le (add_le_add_right hgrow _)⟩
      | silent hsilent =>
          refine ⟨new, ⟨hsilent.posted.trans hbatch.posted, hsilent.events.trans hbatch.events,
            hsilent.queueDelay.trans hbatch.queueDelay, hbatch.allowed⟩, fun hH => ?_⟩
          rw [hsilent.delay]
          exact htimes hH

/-! ### The functions of `event_sender` -/

/-- The events of the modifier keys are allowed. -/
def AllowsModifiers (P : Event → Prop) : Prop :=
  ∀ (flag : ModifierFlag) (eventType : EventType),
    P (makeLazyModifierKeyEvent (.ofModifierFlag flag) eventType).1

/-- The events and the hold down times of a list are allowed. -/
def Allows (P : Event → Prop) (H : ℤ → Prop) (toEvents : List ToEventDefinition) : Prop :=
  ∀ d ∈ toEvents, H d.holdDownMilliseconds ∧
    ∀ event, d.eventDefinition.toEvent = some event → P event

omit [Exprtk] [SystemClock] [MachTimebase] in
/-- What allows a list of to events allows each of its parts. -/
theorem Allows.subset {toEvents toEvents' : List ToEventDefinition} (h : Allows P H toEvents)
    (hsub : toEvents' ⊆ toEvents) : Allows P H toEvents' := fun d hd => h d (hsub hd)

omit [Exprtk] [SystemClock] [MachTimebase] in
/-- The modifier keys of a `to` event definition are keys of modifier flags. -/
theorem exists_of_mem_makeModifierEvents {d : ToEventDefinition} {e : MomentarySwitchEvent}
    (he : e ∈ d.makeModifierEvents) : ∃ flag, e = .ofModifierFlag flag := by
  obtain ⟨m, -, hm⟩ := List.mem_filterMap.mp he
  split at hm
  · rename_i flag _ _
    dsimp only at hm
    split_ifs at hm
    exact ⟨flag, (Option.some.inj hm).symm⟩
  · cases hm

section Modifiers

variable (modifiers : AllowsModifiers P)

include modifiers

/-- Modifier events are always allowed. -/
theorem sends_postLazyModifierKeyEvent (deviceId : DeviceId) (eventType : EventType)
    (isLazy : Bool) (flag : ModifierFlag) (s : EventSender) :
    Sends front P H s
      (s.postLazyModifierKeyEvent front deviceId eventType isLazy (.ofModifierFlag flag)) := by
  unfold postLazyModifierKeyEvent
  split_ifs
  · exact (Act.post _ (modifiers flag eventType)).sends
  · exact .refl s

theorem sends_postLazyModifierKeyEvents {events : List MomentarySwitchEvent}
    (hevents : ∀ e ∈ events, ∃ flag, e = .ofModifierFlag flag) (eventType : EventType)
    (isLazy : Bool) (s : EventSender) :
    Sends front P H s (s.postLazyModifierKeyEvents front events eventType isLazy) := by
  refine sends_foldl (fun e he s => ?_) s
  obtain ⟨flag, rfl⟩ := hevents e he
  exact sends_postLazyModifierKeyEvent modifiers front.deviceId eventType isLazy flag s

theorem sends_postModifierFlags (flags : List ModifierFlag) (eventType : EventType)
    (isLazy : Bool) (s : EventSender) :
    Sends front P H s
      (s.postLazyModifierKeyEvents front (flags.map .ofModifierFlag) eventType isLazy) := by
  refine sends_postLazyModifierKeyEvents modifiers (fun e he => ?_) eventType isLazy s
  obtain ⟨flag, -, rfl⟩ := List.mem_map.mp he
  exact ⟨flag, rfl⟩

/-- Releasing the mandatory modifiers sends modifier events only. -/
theorem sends_postFromMandatoryModifiersKeyUp (s : EventSender) :
    Sends front P H s (s.postFromMandatoryModifiersKeyUp front) := by
  unfold postFromMandatoryModifiersKeyUp
  dsimp only
  refine Sends.trans ?_ (sends_postModifierFlags modifiers _ .keyUp true _)
  exact Silent.sends ⟨rfl, List.Subset.refl _, rfl, rfl, rfl⟩

theorem sends_postFromMandatoryModifiersKeyDown (s : EventSender) :
    Sends front P H s (s.postFromMandatoryModifiersKeyDown front) := by
  unfold postFromMandatoryModifiersKeyDown
  dsimp only
  refine Sends.trans ?_ (sends_postModifierFlags modifiers _ .keyDown true _)
  exact Silent.sends ⟨rfl, List.Subset.refl _, rfl, rfl, rfl⟩

/-- Restoring the scoped modifier flags sends modifier events only. -/
theorem sends_postActiveModifierFlags (flags : List ActiveModifierFlag) (s : EventSender) :
    Sends front P H s (s.postActiveModifierFlags front flags) :=
  sends_foldl (fun f _ s => sends_postLazyModifierKeyEvent modifiers f.deviceId _ true
    f.modifierFlag s) s

/-- The restorer posts modifier keys around its body. -/
theorem sends_scopedFromKeyModifierFlagsState {body : EventSender → EventSender}
    (hbody : ∀ s, Sends front P H s (body s)) (s : EventSender) :
    Sends front P H s (s.scopedFromKeyModifierFlagsState front body) := by
  unfold scopedFromKeyModifierFlagsState
  generalize s.output.queue.modifierFlagManager.scopedModifierFlags
    s.current.keyDownModifierFlags = pair
  obtain ⟨manager, flags⟩ := pair
  dsimp only
  refine Sends.trans ?_ (sends_postActiveModifierFlags modifiers _ _)
  refine Sends.trans ?_ (hbody _)
  refine Sends.trans ?_ (sends_postActiveModifierFlags modifiers flags _)
  exact Silent.sends ⟨rfl, List.Subset.refl _, rfl, rfl, rfl⟩

end Modifiers

omit [MachTimebase] in
/-- `filter_by_conditions` keeps some of the event definitions and posts nothing. -/
theorem filterByConditions_spec (front : Entry) (toEvents : List ToEventDefinition)
    (o : Output) :
    (filterByConditions front toEvents o).1 ⊆ toEvents ∧
      (filterByConditions front toEvents o).2.queue.events = o.queue.events ∧
      (filterByConditions front toEvents o).2.queue.timeStampDelay = o.queue.timeStampDelay := by
  induction toEvents generalizing o with
  | nil => exact ⟨List.Subset.refl _, rfl, rfl⟩
  | cons d ds ih =>
      unfold filterByConditions
      generalize isFulfilled d.conditions front o.queue.manipulatorEnvironment o.world = fulfilled
      obtain ⟨fulfilled, env, w⟩ := fulfilled
      obtain ⟨hsub, hevents, hdelay⟩ :=
        ih { queue := { o.queue with manipulatorEnvironment := env }, world := w }
      refine ⟨?_, hevents, hdelay⟩
      dsimp only
      split_ifs
      · exact List.cons_subset_cons d hsub
      · exact List.subset_cons_of_subset d hsub

omit [MachTimebase] in
/-- Testing the conditions of the to events posts nothing. -/
theorem silent_filterByConditions (front : Entry) (toEvents : List ToEventDefinition)
    (s : EventSender) :
    Silent s { s with output := (filterByConditions front toEvents s.output).2 } := by
  obtain ⟨-, hevents, hdelay⟩ := filterByConditions_spec front toEvents s.output
  exact ⟨rfl, List.Subset.refl _, hevents, hdelay, rfl⟩

/-- The key_down of an allowed to event. -/
theorem sends_postToEvent {d : ToEventDefinition} {event : Event} (hevent : P event)
    (s : EventSender) : Sends front P H s (s.postToEvent front d event) :=
  (Act.post (toEvent front d event .keyDown) hevent).sends.trans
    (Silent.sends ⟨rfl, List.Subset.refl _, rfl, rfl, rfl⟩)

/-- Its key_up, which may come later by the hold down milliseconds. -/
theorem sends_postToEventKeyUp {d : ToEventDefinition} {event : Event} (hevent : P event)
    (hhold : H d.holdDownMilliseconds) (s : EventSender) :
    Sends front P H s (s.postToEventKeyUp front d event) :=
  (Act.hold d.holdDownMilliseconds hhold).sends.trans
    (Act.post (toEvent front d event .keyUp) hevent).sends

section Modifiers

variable (modifiers : AllowsModifiers P)

include modifiers

/-- The events of one to event at key_down, its key_up either posted or kept for the release. -/
theorem sends_postEventAtKeyDown {d : ToEventDefinition} {event : Event} (hevent : P event)
    (hhold : H d.holdDownMilliseconds) (isLast : Bool) (s : EventSender) :
    Sends front P H s (s.postEventAtKeyDown front d event isLast) := by
  have hmodifiers (eventType : EventType) (isLazy : Bool) (s : EventSender) :
      Sends front P H s (s.postLazyModifierKeyEvents front d.makeModifierEvents eventType isLazy) :=
    sends_postLazyModifierKeyEvents modifiers (fun e he => exists_of_mem_makeModifierEvents he)
      eventType isLazy s
  have hkeyUp (s : EventSender) : Sends front P H s
      (if !isLast || !d.repeat then s.postToEventKeyUp front d event
        else s.emplaceBackEventAtKeyUp (toEvent front d event .keyUp)) := by
    split_ifs
    · exact sends_postToEventKeyUp hevent hhold s
    · exact (Act.defer _ hevent).sends
  have hdefer (s : EventSender) : Sends front P H s
      (d.makeModifierEvents.foldl (fun s e => s.emplaceBackEventAtKeyUp
        (lazyModifierKeyEvent front front.deviceId e .keyUp true)) s) := by
    refine sends_foldl (fun e he s => ?_) s
    obtain ⟨flag, rfl⟩ := exists_of_mem_makeModifierEvents he
    exact (Act.defer _ (modifiers flag .keyUp)).sends
  unfold postEventAtKeyDown
  dsimp only
  have hdown := (hmodifiers .keyDown (!isModifierKeyEvent event || d.isLazy) s).trans
    (sends_postToEvent (d := d) hevent _)
  have hup := hdown.trans (hkeyUp _)
  by_cases hlast : (isLast && isModifierKeyEvent event) = true
  · rw [if_pos hlast]
    exact hup.trans (hdefer _)
  · rw [if_neg hlast]
    exact hup.trans (hmodifiers .keyUp true _)

/-- The to events at key_down send what the to events allow. -/
theorem sends_postEventsAtKeyDown {toEvents : List ToEventDefinition}
    (htoEvents : Allows P H toEvents) (s : EventSender) :
    Sends front P H s (s.postEventsAtKeyDown front toEvents) := by
  have hloop (l : List ToEventDefinition) (hl : Allows P H l) (s : EventSender) :
      Sends front P H s (postEventsAtKeyDownLoop front l s) := by
    induction l generalizing s with
    | nil => exact .refl s
    | cons d ds ih =>
        have ih := ih fun d' hd' => hl d' (List.mem_cons_of_mem d hd')
        unfold postEventsAtKeyDownLoop
        split
        · rename_i event hevent
          obtain ⟨hhold, hallowed⟩ := hl d List.mem_cons_self
          exact (sends_postEventAtKeyDown modifiers (hallowed event hevent) hhold _ s).trans (ih _)
        · exact ih s
  unfold postEventsAtKeyDown
  split_ifs
  · exact .refl s
  · exact (silent_filterByConditions front toEvents s).sends.trans
      (hloop _ (htoEvents.subset (filterByConditions_spec front toEvents s.output).1) _)

theorem sends_postExtraToEvents {toEvents : List ToEventDefinition}
    (htoEvents : Allows P H toEvents) (s : EventSender) :
    Sends front P H s (s.postExtraToEvents front toEvents) := by
  have hmodifiers (d : ToEventDefinition) (eventType : EventType) (s : EventSender) :
      Sends front P H s (s.postLazyModifierKeyEvents front d.makeModifierEvents eventType true) :=
    sends_postLazyModifierKeyEvents modifiers (fun e he => exists_of_mem_makeModifierEvents he)
      eventType true s
  have hloop (l : List ToEventDefinition) (hl : Allows P H l) (s : EventSender) :
      Sends front P H s (postExtraToEventsLoop front l s) := by
    refine sends_foldl (fun d hd s => ?_) s
    obtain ⟨hhold, hallowed⟩ := hl d hd
    split
    · rename_i event hevent
      have hevent := hallowed event hevent
      exact (((hmodifiers d .keyDown s).trans (sends_postToEvent hevent _)).trans
        (sends_postToEventKeyUp hevent hhold _)).trans (hmodifiers d .keyUp _)
    · exact .refl s
  unfold postExtraToEvents
  split_ifs
  · exact .refl s
  · exact (silent_filterByConditions front toEvents s).sends.trans
      (hloop _ (htoEvents.subset (filterByConditions_spec front toEvents s.output).1) _)

end Modifiers

/-- The deferred events are posted. -/
theorem sends_postEventsAtKeyUp {s : EventSender}
    (hs : ∀ e ∈ s.current.eventsAtKeyUp, P e.event) :
    Sends front P H s (s.postEventsAtKeyUp front) :=
  (sends_foldl (fun e he _ => (Act.post e (hs e he)).sends) s).trans
    (Silent.sends ⟨rfl, List.nil_subset _, rfl, rfl, rfl⟩)

end EventSender

namespace BasicDefinition

open EventSender

/-! ### The parts of `manipulate` that post -/

variable {front : Entry} {P : Event → Prop} {H : ℤ → Prop} (modifiers : AllowsModifiers P)

include modifiers

/-- `to` sends what its events allow. -/
theorem sends_postTo {toEvents : List ToEventDefinition} (htoEvents : Allows P H toEvents)
    (s : EventSender) : Sends front P H s (postTo front toEvents s) := by
  have h : Sends front P H s
      ((s.postFromMandatoryModifiersKeyUp front).postEventsAtKeyDown front toEvents) :=
    (sends_postFromMandatoryModifiersKeyUp modifiers s).trans
      (sends_postEventsAtKeyDown modifiers htoEvents _)
  unfold postTo
  dsimp only
  split_ifs
  · exact h
  · exact h.trans (sends_postFromMandatoryModifiersKeyDown modifiers _)

/-- Extra events with the modifiers around them. -/
theorem sends_postExtra {toEvents : List ToEventDefinition} (htoEvents : Allows P H toEvents)
    (s : EventSender) : Sends front P H s (postExtra front toEvents s) :=
  ((sends_postFromMandatoryModifiersKeyUp modifiers s).trans
    (sends_postExtraToEvents modifiers htoEvents _)).trans
    (sends_postFromMandatoryModifiersKeyDown modifiers _)

theorem sends_postExtraIfAny {toEvents : List ToEventDefinition} (htoEvents : Allows P H toEvents)
    (s : EventSender) : Sends front P H s (postExtraIfAny front toEvents s) := by
  unfold postExtraIfAny
  split_ifs
  · exact .refl s
  · exact sends_postExtra modifiers htoEvents s

/-- `to_delayed_action`, invoked or canceled. -/
theorem sends_postDelayedAction {toEvents : List ToEventDefinition}
    (htoEvents : Allows P H toEvents) (s : EventSender) :
    Sends front P H s (postDelayedAction front toEvents s) :=
  sends_scopedFromKeyModifierFlagsState modifiers (fun s =>
    ((sends_postModifierFlags modifiers s.current.fromMandatoryModifiers .keyUp true s).trans
      (sends_postExtraToEvents modifiers htoEvents _)).trans
      (sends_postModifierFlags modifiers s.current.fromMandatoryModifiers .keyDown true _)) s

/-- `to_if_held_down` sends what its events allow, and what the press keeps for its release. -/
theorem sends_postHeldDown {toEvents : List ToEventDefinition} (htoEvents : Allows P H toEvents)
    {s : EventSender} (hs : ∀ e ∈ s.current.eventsAtKeyUp, P e.event) :
    Sends front P H s (postHeldDown front toEvents s) :=
  ((sends_postEventsAtKeyUp hs).trans (sends_postFromMandatoryModifiersKeyDown modifiers _)).trans
    (sends_postTo modifiers htoEvents _)

/-- What a key_up posts comes from what the press has deferred, two lists, and a third one when the
press holds nothing any more. -/
theorem sends_postKeyUp {d : BasicDefinition} (halone : Allows P H d.toIfAlone)
    (hafter : Allows P H d.toAfterKeyUp) {s : EventSender}
    (hsimultaneous : s.current.fromEvents = ∅ →
      Allows P H d.from_.simultaneousOptions.toAfterKeyUp)
    (hs : ∀ e ∈ s.current.eventsAtKeyUp, P e.event) :
    Sends front P H s (d.postKeyUp front s) := by
  have hifAlone (s : EventSender) : Sends front P H s (d.postToIfAlone front s) := by
    unfold postToIfAlone
    dsimp only
    split_ifs
    · exact sends_scopedFromKeyModifierFlagsState modifiers
        (fun s => sends_postExtra modifiers halone s) s
    · exact .refl s
  have honce : Sends front P H s (d.postKeyUpOnce front s) := by
    unfold postKeyUpOnce
    refine Sends.trans ?_ (sends_postExtraIfAny modifiers hafter _)
    refine Sends.trans ?_ (hifAlone _)
    refine Sends.trans ?_ (sends_postFromMandatoryModifiersKeyDown modifiers _)
    refine Sends.trans ?_ (sends_postEventsAtKeyUp (s := { s with current.keyUpPosted := true }) hs)
    exact Silent.sends ⟨rfl, List.Subset.refl _, rfl, rfl, rfl⟩
  have honce' : Sends front P H s
        (if s.current.keyUpPosted then s else d.postKeyUpOnce front s) ∧
      (if s.current.keyUpPosted then s else d.postKeyUpOnce front s).current.fromEvents =
        s.current.fromEvents := by
    split_ifs
    · exact ⟨.refl s, rfl⟩
    · have hfrom := fromEvents_of_keeps (d.keeps_postKeyUpOnce front s)
      exact ⟨honce, hfrom⟩
  unfold postKeyUp
  dsimp only
  generalize (if s.current.keyUpPosted then s else d.postKeyUpOnce front s) = t at honce'
  split_ifs with hskip hempty
  · exact .refl s
  · exact honce'.1.trans (sends_postExtraIfAny modifiers (hsimultaneous (honce'.2 ▸ hempty)) _)
  · exact honce'.1

end BasicDefinition

end Karabiner
