import Karabiner.Manipulator.Basic.EventSender
import Mathlib.Tactic.Abel

/-!
# The ledger of a press

Every function of `event_sender` posts or defers both halves of a pair.  A `Charge` is any way to
count entries in which the halves of a pair cancel, and `Charge.balance` counts what has been
posted for a press together with what the press still owes: its `events_at_key_up`, and a key_down
for each mandatory modifier that was released on its behalf.

* `Keeps` — what every function of `event_sender` keeps: the balance under every charge, and the
  parts of the press the functions do not write.
* `Settled` — nothing is owed.  A settled press with balance zero has posted equally many halves
  (`balance_of_settled`).
-/

namespace Karabiner

/-! ### Charges -/

/-- A count of entries in which a key_down and its key_up cancel, and so do the two sticky
modifier events that stand for a key_down and a key_up of `caps_lock`. -/
structure Charge where
  charge : Event → EventType → ℤ
  pair (e : Event) : charge e .keyDown + charge e .keyUp = 0
  capsLock : charge (.stickyModifier .capsLock .on) .single +
    charge (.stickyModifier .capsLock .off) .single = 0

namespace Charge

/-- The charge of what `post_lazy_modifier_key_event` posts. -/
def key (c : Charge) (eventType : EventType) (e : MomentarySwitchEvent) : ℤ :=
  if e.valid then
    c.charge (makeLazyModifierKeyEvent e eventType).1 (makeLazyModifierKeyEvent e eventType).2
  else 0

/-- A key_down and its key_up cancel out. -/
theorem key_pair (c : Charge) (e : MomentarySwitchEvent) :
    c.key .keyDown e + c.key .keyUp e = 0 := by
  cases hv : e.valid with
  | false => simp [key, hv]
  | true =>
      cases hc : e.capsLock with
      | true => simpa [key, makeLazyModifierKeyEvent, hv, hc] using c.capsLock
      | false => simpa [key, makeLazyModifierKeyEvent, hv, hc] using c.pair _

/-- The charges of some keys. -/
def keys (c : Charge) (eventType : EventType) (events : List MomentarySwitchEvent) : ℤ :=
  (events.map (c.key eventType)).sum

theorem keys_pair (c : Charge) (events : List MomentarySwitchEvent) :
    c.keys .keyDown events + c.keys .keyUp events = 0 := by
  induction events with
  | nil => rfl
  | cons e es ih =>
      have h := c.key_pair e
      simp only [keys, List.map_cons, List.sum_cons] at ih ⊢
      linarith

end Charge

namespace ManipulatedOriginalEvent

/-- The key_downs owed to the mandatory modifiers that were released. -/
def owedModifiers (m : ManipulatedOriginalEvent) : List MomentarySwitchEvent :=
  (m.fromMandatoryModifiers.filter fun f => f ∈ m.keyUpPostedFromMandatoryModifiers).map
    .ofModifierFlag

/-- Nothing is owed: no event waits for the key_up and no mandatory modifier is released. -/
def Settled (m : ManipulatedOriginalEvent) : Prop :=
  m.eventsAtKeyUp = [] ∧ m.keyUpPostedFromMandatoryModifiers = ∅

/-- The released modifiers are mandatory modifiers. -/
def Legal (m : ManipulatedOriginalEvent) : Prop :=
  ∀ f ∈ m.keyUpPostedFromMandatoryModifiers, f ∈ m.fromMandatoryModifiers

/-- The part of a press that the functions of `event_sender` do not write. -/
def frame (m : ManipulatedOriginalEvent) : ManipulatedOriginalEvent :=
  { m with
    keyUpPostedFromMandatoryModifiers := ∅
    halted := false
    eventsAtKeyUp := []
    posted := [] }

end ManipulatedOriginalEvent

namespace Charge

/-- What has been posted for a press and what it owes. -/
def balance (c : Charge) (m : ManipulatedOriginalEvent) : ℤ :=
  (m.posted.map fun e => c.charge e.event e.eventType).sum +
    (m.eventsAtKeyUp.map fun e => c.charge e.event e.eventType).sum +
    c.keys .keyDown m.owedModifiers

/-- **A settled press has posted what its balance says.** -/
theorem balance_of_settled (c : Charge) {m : ManipulatedOriginalEvent} (h : m.Settled) :
    c.balance m = (m.posted.map fun e => c.charge e.event e.eventType).sum := by
  simp [balance, ManipulatedOriginalEvent.owedModifiers, h.1, h.2, keys]

end Charge

variable [Exprtk]

namespace EventSender

/-! ### Entries posted or deferred -/

/-- Entries of charge `δ` are posted or deferred between two states: only what has been posted,
what is deferred and `halted` may differ in the press. -/
structure Moves (s s' : EventSender) (δ : Charge → ℤ) : Prop where
  frame : s'.current.frame = s.current.frame
  released : s'.current.keyUpPostedFromMandatoryModifiers =
    s.current.keyUpPostedFromMandatoryModifiers
  balance (c : Charge) : c.balance s'.current = c.balance s.current + δ c

/-- As `Moves`, and nothing is deferred. -/
structure Posts (s s' : EventSender) (δ : Charge → ℤ) : Prop extends Moves s s' δ where
  deferred : s'.current.eventsAtKeyUp = s.current.eventsAtKeyUp

/-- A state with the same press. -/
theorem Posts.of_current_eq {s s' : EventSender} (h : s'.current = s.current) :
    Posts s s' 0 := by
  refine ⟨⟨?_, ?_, fun c => ?_⟩, ?_⟩ <;> rw [h]
  exact (add_zero _).symm

theorem Moves.trans {s s' s'' : EventSender} {δ δ' : Charge → ℤ} (h : Moves s s' δ)
    (h' : Moves s' s'' δ') : Moves s s'' (δ + δ') where
  frame := h'.frame.trans h.frame
  released := h'.released.trans h.released
  balance c := by rw [h'.balance, h.balance, Pi.add_apply, add_assoc]

theorem Posts.trans {s s' s'' : EventSender} {δ δ' : Charge → ℤ} (h : Posts s s' δ)
    (h' : Posts s' s'' δ') : Posts s s'' (δ + δ') where
  toMoves := h.toMoves.trans h'.toMoves
  deferred := h'.deferred.trans h.deferred

/-- The mandatory modifiers are part of the frame. -/
theorem Moves.fromMandatoryModifiers {s s' : EventSender} {δ : Charge → ℤ} (h : Moves s s' δ) :
    s'.current.fromMandatoryModifiers = s.current.fromMandatoryModifiers := by
  have hframe := congrArg ManipulatedOriginalEvent.fromMandatoryModifiers h.frame
  exact hframe

/-- A loop posts the sum of what its body posts. -/
theorem posts_foldl {α : Type} {f : EventSender → α → EventSender} {δ : α → Charge → ℤ}
    (h : ∀ s a, Posts s (f s a) (δ a)) (l : List α) (s : EventSender) :
    Posts s (l.foldl f s) (l.map δ).sum := by
  induction l generalizing s with
  | nil => exact .of_current_eq rfl
  | cons a l ih => exact (h s a).trans (ih (f s a))

/-- An event kept for the release is charged when it is kept. -/
theorem moves_emplaceBackEventAtKeyUp (s : EventSender) (e : EventAtKeyUp) :
    Moves s (s.emplaceBackEventAtKeyUp e) fun c => c.charge e.event e.eventType where
  frame := rfl
  released := rfl
  balance c := by
    simp only [Charge.balance, emplaceBackEventAtKeyUp, List.map_append, List.sum_append,
      List.map_cons, List.map_nil, List.sum_cons, List.sum_nil,
      ManipulatedOriginalEvent.owedModifiers]
    abel

/-- A halt is charged with nothing. -/
theorem posts_haltIf (s : EventSender) (halt : Bool) : Posts s (s.haltIf halt) 0 where
  frame := rfl
  released := rfl
  deferred := rfl
  balance _ := (add_zero _).symm

variable [SystemClock]

/-- A posted event is charged as it is posted. -/
theorem posts_post (s : EventSender) (t : EventTimeStamp) (e : EventAtKeyUp) :
    Posts s (s.post t e) fun c => c.charge e.event e.eventType where
  frame := rfl
  released := rfl
  deferred := rfl
  balance c := by
    simp only [Charge.balance, post, List.map_append, List.sum_append, List.map_cons,
      List.map_nil, List.sum_cons, List.sum_nil, EventAtKeyUp.makeEntry,
      ManipulatedOriginalEvent.owedModifiers]
    abel

/-- One lazy modifier event is charged as its key. -/
theorem posts_postLazyModifierKeyEvent (front : Entry) (deviceId : DeviceId)
    (eventType : EventType) (isLazy : Bool) (s : EventSender) (e : MomentarySwitchEvent) :
    Posts s (postLazyModifierKeyEvent front deviceId eventType isLazy s e)
      fun c => c.key eventType e := by
  unfold postLazyModifierKeyEvent
  split_ifs with hv
  · simpa [Charge.key, hv, lazyModifierKeyEvent] using posts_post s front.eventTimeStamp
      (lazyModifierKeyEvent front deviceId e eventType isLazy)
  · have hzero : (fun c : Charge => c.key eventType e) = 0 := by
      funext c
      simp [Charge.key, hv]
    rw [hzero]
    exact .of_current_eq rfl

/-- The lazy modifier events of a list are charged as their keys. -/
theorem posts_postLazyModifierKeyEvents (front : Entry) (events : List MomentarySwitchEvent)
    (eventType : EventType) (isLazy : Bool) (s : EventSender) :
    Posts s (s.postLazyModifierKeyEvents front events eventType isLazy)
      fun c => c.keys eventType events := by
  have hsum : (events.map fun e (c : Charge) => c.key eventType e).sum =
      fun c => c.keys eventType events := by
    funext c
    induction events with
    | nil => rfl
    | cons e es ih =>
        rw [List.map_cons, List.sum_cons, Pi.add_apply, ih]
        rfl
  rw [← hsum]
  exact posts_foldl (posts_postLazyModifierKeyEvent front front.deviceId eventType isLazy) events s

/-- The key_down of a to event is charged as one. -/
theorem posts_postToEvent (front : Entry) (d : ToEventDefinition) (event : Event)
    (s : EventSender) :
    Posts s (s.postToEvent front d event) fun c => c.charge event .keyDown := by
  have h := (posts_post s front.eventTimeStamp (toEvent front d event .keyDown)).trans
    (posts_haltIf _ d.halt)
  rwa [add_zero] at h

section MachTimebase

variable [MachTimebase]

theorem posts_postToEventKeyUp (front : Entry) (d : ToEventDefinition) (event : Event)
    (s : EventSender) :
    Posts s (s.postToEventKeyUp front d event) fun c => c.charge event .keyUp := by
  let s' : EventSender :=
    { s with timeStampDelay := s.timeStampDelay + makeAbsoluteTimeDuration d.holdDownMilliseconds }
  have hdelay : Posts s s' 0 := .of_current_eq rfl
  have h := hdelay.trans (posts_post s' front.eventTimeStamp (toEvent front d event .keyUp))
  rwa [zero_add] at h

/-! ### Pairs -/

omit [Exprtk] [SystemClock] [MachTimebase] in
/-- A key with its modifiers, pressed and released, charges nothing. -/
theorem pair_eq_zero (events : List MomentarySwitchEvent) (event : Event) :
    (fun c : Charge => c.keys .keyDown events) + (fun c => c.charge event .keyDown) +
      (fun c => c.charge event .keyUp) + (fun c => c.keys .keyUp events) = 0 := by
  funext c
  have hkeys := c.keys_pair events
  have hpair := c.pair event
  simp only [Pi.add_apply, Pi.zero_apply]
  linarith

/-- `post_extra_to_events` posts whole pairs. -/
theorem posts_postExtraToEvent (front : Entry) (d : ToEventDefinition) (event : Event)
    (s : EventSender) : Posts s (s.postExtraToEvent front d event) 0 := by
  rw [← pair_eq_zero d.makeModifierEvents event]
  exact (((posts_postLazyModifierKeyEvents front _ _ _ s).trans
    (posts_postToEvent front d event _)).trans (posts_postToEventKeyUp front d event _)).trans
    (posts_postLazyModifierKeyEvents front _ _ _ _)

/-- Extra events are released as they are pressed, so that nothing is left. -/
theorem posts_postExtraToEvents (front : Entry) (toEvents : List ToEventDefinition)
    (s : EventSender) : Posts s (s.postExtraToEvents front toEvents) 0 := by
  unfold postExtraToEvents
  split_ifs
  · exact .of_current_eq rfl
  · have hloop (l : List ToEventDefinition) (s : EventSender) :
        Posts s (postExtraToEventsLoop front l s) 0 := by
      have hzero : (l.map fun _ => (0 : Charge → ℤ)).sum = 0 := by
        rw [List.map_const', List.sum_replicate, nsmul_zero]
      rw [← hzero]
      refine posts_foldl (fun s d => ?_) l s
      split
      · exact posts_postExtraToEvent front d _ s
      · exact .of_current_eq rfl
    let s' : EventSender := { s with output := (filterByConditions front toEvents s.output).2 }
    have hfilter : Posts s s' 0 := .of_current_eq rfl
    have h := hfilter.trans (hloop (filterByConditions front toEvents s.output).1 s')
    rwa [add_zero] at h

omit [SystemClock] [MachTimebase] in
/-- The key_ups of the modifiers, deferred. -/
theorem moves_deferModifiers (front : Entry) {events : List MomentarySwitchEvent}
    (hvalid : ∀ e ∈ events, e.valid = true) (s : EventSender) :
    Moves s (events.foldl (fun s e => s.emplaceBackEventAtKeyUp
      (lazyModifierKeyEvent front front.deviceId e .keyUp true)) s)
      fun c => c.keys .keyUp events := by
  induction events generalizing s with
  | nil => exact (Posts.of_current_eq rfl).toMoves
  | cons e es ih =>
      have hkey : (fun c : Charge => c.keys .keyUp (e :: es)) =
          (fun c => c.charge (lazyModifierKeyEvent front front.deviceId e .keyUp true).event
            (lazyModifierKeyEvent front front.deviceId e .keyUp true).eventType) +
          fun c => c.keys .keyUp es := by
        funext c
        simp [Charge.keys, Charge.key, hvalid e, lazyModifierKeyEvent]
      rw [hkey]
      exact (moves_emplaceBackEventAtKeyUp s _).trans
        (ih (fun e' he' => hvalid e' (List.mem_cons_of_mem e he')) _)

/-- `post_events_at_key_down` posts or defers whole pairs. -/
theorem moves_postEventAtKeyDown (front : Entry) (d : ToEventDefinition) (event : Event)
    (isLast : Bool) (s : EventSender) :
    Moves s (s.postEventAtKeyDown front d event isLast) 0 := by
  rw [← pair_eq_zero d.makeModifierEvents event]
  have hdown := (posts_postLazyModifierKeyEvents front d.makeModifierEvents .keyDown
    (!isModifierKeyEvent event || d.isLazy) s).trans (posts_postToEvent front d event _)
  have hup (s : EventSender) : Moves s
      (if !isLast || !d.repeat then s.postToEventKeyUp front d event
        else s.emplaceBackEventAtKeyUp (toEvent front d event .keyUp))
      fun c => c.charge event .keyUp := by
    split_ifs
    · exact (posts_postToEventKeyUp front d event s).toMoves
    · exact moves_emplaceBackEventAtKeyUp s _
  have hvalid : ∀ e ∈ d.makeModifierEvents, e.valid = true := d.valid_of_mem_makeModifierEvents
  have h := hdown.toMoves.trans (hup _)
  unfold postEventAtKeyDown
  dsimp only
  by_cases hlast : (isLast && isModifierKeyEvent event) = true
  · rw [if_pos hlast]
    exact h.trans (moves_deferModifiers front hvalid _)
  · rw [if_neg hlast]
    exact h.trans (posts_postLazyModifierKeyEvents front _ _ _ _).toMoves

/-- At key_down whatever is not released at once is kept for the release, so that nothing is left.
-/
theorem moves_postEventsAtKeyDown (front : Entry) (toEvents : List ToEventDefinition)
    (s : EventSender) : Moves s (s.postEventsAtKeyDown front toEvents) 0 := by
  have hloop (l : List ToEventDefinition) (s : EventSender) :
      Moves s (postEventsAtKeyDownLoop front l s) 0 := by
    induction l generalizing s with
    | nil => exact (Posts.of_current_eq rfl).toMoves
    | cons d ds ih =>
        unfold postEventsAtKeyDownLoop
        split
        · rename_i event _
          have h := (moves_postEventAtKeyDown front d event ds.isEmpty s).trans (ih _)
          rwa [add_zero] at h
        · exact ih s
  unfold postEventsAtKeyDown
  split_ifs
  · exact (Posts.of_current_eq rfl).toMoves
  · let s' : EventSender := { s with output := (filterByConditions front toEvents s.output).2 }
    have hfilter : Posts s s' 0 := .of_current_eq rfl
    have h := hfilter.toMoves.trans (hloop (filterByConditions front toEvents s.output).1 s')
    rwa [add_zero] at h

end MachTimebase

/-- Restoring scoped modifier flags is charged with one key for each flag. -/
theorem posts_postActiveModifierFlags (front : Entry) (flags : List ActiveModifierFlag)
    (s : EventSender) :
    Posts s (s.postActiveModifierFlags front flags)
      (flags.map fun f (c : Charge) =>
        c.key (if f.count > 0 then .keyDown else .keyUp) (.ofModifierFlag f.modifierFlag)).sum :=
  posts_foldl (fun s (f : ActiveModifierFlag) =>
    posts_postLazyModifierKeyEvent front f.deviceId (if f.count > 0 then .keyDown else .keyUp) true
      s (.ofModifierFlag f.modifierFlag)) flags s

/-! ### What the functions of `event_sender` keep -/

/-- The parts of the press they do not write, the balance under every charge, and that only
mandatory modifiers are released. -/
structure Keeps (s s' : EventSender) : Prop where
  frame : s'.current.frame = s.current.frame
  balance (c : Charge) : c.balance s'.current = c.balance s.current
  legal : s.current.Legal → s'.current.Legal

omit [SystemClock] in
theorem Keeps.trans {s s' s'' : EventSender} (h : Keeps s s') (h' : Keeps s' s'') :
    Keeps s s'' where
  frame := h'.frame.trans h.frame
  balance c := (h'.balance c).trans (h.balance c)
  legal hs := h'.legal (h.legal hs)

omit [SystemClock] in
/-- A change that only moves charges keeps a press legal. -/
theorem Moves.legal {s s' : EventSender} {δ : Charge → ℤ} (h : Moves s s' δ)
    (hs : s.current.Legal) : s'.current.Legal := by
  unfold ManipulatedOriginalEvent.Legal
  rw [h.released, h.fromMandatoryModifiers]
  exact hs

omit [SystemClock] in
/-- A change that leaves no charge keeps a press settled. -/
theorem Moves.keeps {s s' : EventSender} (h : Moves s s' 0) : Keeps s s' where
  frame := h.frame
  balance c := (h.balance c).trans (add_zero _)
  legal := h.legal

omit [SystemClock] in
/-- A posting does not touch what the press keeps, so that it stays settled. -/
theorem Posts.settled {s s' : EventSender} {δ : Charge → ℤ} (h : Posts s s' δ)
    (hs : s.current.Settled) : s'.current.Settled :=
  ⟨h.deferred.trans hs.1, h.released.trans hs.2⟩

omit [SystemClock] in
/-- Forgetting the deferred events once they are posted. -/
theorem Posts.keeps_clear {s t : EventSender} {δ : Charge → ℤ} (h : Posts s t δ)
    (hδ : ∀ c, δ c = (s.current.eventsAtKeyUp.map fun e => c.charge e.event e.eventType).sum) :
    Keeps s { t with current.eventsAtKeyUp := [] } where
  frame := h.frame
  balance c := by
    have hbalance := h.balance c
    rw [hδ] at hbalance
    simp only [Charge.balance, h.deferred, ManipulatedOriginalEvent.owedModifiers] at hbalance ⊢
    rw [List.map_nil, List.sum_nil]
    linarith
  legal hs := h.toMoves.legal hs

/-- Posting the deferred events keeps the balance, and nothing is deferred afterwards. -/
theorem keeps_postEventsAtKeyUp (front : Entry) (s : EventSender) :
    Keeps s (s.postEventsAtKeyUp front) := by
  have hsum (c : Charge) (l : List EventAtKeyUp) :
      (l.map fun e (c : Charge) => c.charge e.event e.eventType).sum c =
        (l.map fun e => c.charge e.event e.eventType).sum := by
    induction l with
    | nil => rfl
    | cons e es ih => rw [List.map_cons, List.sum_cons, Pi.add_apply, ih, List.map_cons,
        List.sum_cons]
  exact (posts_foldl (fun s e => posts_post s front.eventTimeStamp e)
    s.current.eventsAtKeyUp s).keeps_clear fun c => hsum c _

/-- Once the key_up events are posted the press keeps none. -/
theorem postEventsAtKeyUp_eventsAtKeyUp (front : Entry) (s : EventSender) :
    (s.postEventsAtKeyUp front).current.eventsAtKeyUp = [] := rfl

/-! ### The mandatory modifiers -/

omit [Exprtk] [SystemClock] in
/-- The charges of two disjoint parts of a list. -/
theorem keys_filter_or (c : Charge) (eventType : EventType) {p q : ModifierFlag → Bool}
    (hpq : ∀ f, q f = true → p f = false) (l : List ModifierFlag) :
    c.keys eventType ((l.filter fun f => p f || q f).map .ofModifierFlag) =
      c.keys eventType ((l.filter p).map .ofModifierFlag) +
        c.keys eventType ((l.filter q).map .ofModifierFlag) := by
  induction l with
  | nil => rfl
  | cons f l ih =>
      simp only [Charge.keys, List.map_map] at ih ⊢
      cases hq : q f with
      | true =>
          simp only [List.filter_cons, hq, hpq f hq, Bool.or_true, if_true, Bool.false_eq_true,
            if_false, List.map_cons, List.sum_cons, ih]
          abel
      | false => cases hp : p f <;> simp [hq, hp, ih, add_assoc]

/-- Released mandatory modifiers are owed a key_down. -/
theorem keeps_postFromMandatoryModifiersKeyUp (front : Entry) (s : EventSender) :
    Keeps s (s.postFromMandatoryModifiersKeyUp front) := by
  let m := s.current
  let p : ModifierFlag → Bool := fun f => f ∈ m.keyUpPostedFromMandatoryModifiers
  let q : ModifierFlag → Bool := fun f =>
    f ∉ m.keyUpPostedFromMandatoryModifiers && s.output.queue.modifierFlagManager.isPressed f
  let modifiers := m.fromMandatoryModifiers.filter q
  let t : EventSender :=
    { s with
      current.keyUpPostedFromMandatoryModifiers :=
        m.keyUpPostedFromMandatoryModifiers ∪ modifiers.toFinset }
  have h := posts_postLazyModifierKeyEvents front (modifiers.map .ofModifierFlag) .keyUp true t
  have howed : t.current.owedModifiers =
      (m.fromMandatoryModifiers.filter fun f => p f || q f).map .ofModifierFlag := by
    refine congrArg _ (List.filter_congr fun f hf => ?_)
    have hf' : f ∈ m.fromMandatoryModifiers := hf
    by_cases hk : f ∈ m.keyUpPostedFromMandatoryModifiers <;> simp [t, modifiers, p, q, hf', hk]
  have hbalance (c : Charge) : c.balance t.current =
      c.balance m + c.keys .keyDown (modifiers.map .ofModifierFlag) := by
    simp only [Charge.balance]
    have hpq : ∀ f, q f = true → p f = false := by
      intro f hf
      simpa [p, q] using (Bool.and_eq_true_iff.mp hf).1
    rw [howed, keys_filter_or c .keyDown hpq m.fromMandatoryModifiers]
    exact (add_assoc _ _ _).symm
  refine ⟨h.frame, fun c => ?_, fun hs => h.legal fun f hf => ?_⟩
  · have hpair := c.keys_pair (modifiers.map .ofModifierFlag)
    have hpost := h.balance c
    rw [hbalance, add_assoc, hpair, add_zero] at hpost
    exact hpost
  · rcases Finset.mem_union.mp hf with hf | hf
    · exact hs f hf
    · exact List.mem_of_mem_filter (List.mem_toFinset.mp hf)

/-- Pressing the released modifiers again pays what is owed to them. -/
theorem keeps_postFromMandatoryModifiersKeyDown (front : Entry) (s : EventSender) :
    Keeps s (s.postFromMandatoryModifiersKeyDown front) := by
  let m := s.current
  let modifiers := m.fromMandatoryModifiers.filter fun f =>
    f ∈ m.keyUpPostedFromMandatoryModifiers
  let t : EventSender :=
    { s with
      current.keyUpPostedFromMandatoryModifiers :=
        m.keyUpPostedFromMandatoryModifiers \ modifiers.toFinset }
  have h := posts_postLazyModifierKeyEvents front (modifiers.map .ofModifierFlag) .keyDown true t
  have howed : t.current.owedModifiers = [] := by
    refine List.map_eq_nil_iff.mpr (List.filter_eq_nil_iff.mpr fun f hf => ?_)
    have hf' : f ∈ m.fromMandatoryModifiers := hf
    simp [t, modifiers, hf']
  refine ⟨h.frame, fun c => ?_, fun hs => h.legal fun f hf => ?_⟩
  · have hpost := h.balance c
    have ht : c.balance t.current + c.keys .keyDown (modifiers.map .ofModifierFlag) =
        c.balance m := by
      simp only [Charge.balance, howed]
      simp [Charge.keys, t, m, modifiers, ManipulatedOriginalEvent.owedModifiers]
    exact hpost.trans ht
  · exact hs f (Finset.mem_sdiff.mp hf).1

/-- No mandatory modifier is released afterwards. -/
theorem postFromMandatoryModifiersKeyDown_released (front : Entry) {s : EventSender}
    (hs : s.current.Legal) :
    (s.postFromMandatoryModifiersKeyDown front).current.keyUpPostedFromMandatoryModifiers = ∅ := by
  let m := s.current
  let modifiers := m.fromMandatoryModifiers.filter fun f =>
    f ∈ m.keyUpPostedFromMandatoryModifiers
  have h := posts_postLazyModifierKeyEvents front (modifiers.map .ofModifierFlag) .keyDown true
    { s with
      current.keyUpPostedFromMandatoryModifiers :=
        m.keyUpPostedFromMandatoryModifiers \ modifiers.toFinset }
  refine h.released.trans (Finset.sdiff_eq_empty_iff_subset.mpr fun f hf => ?_)
  have hf' : f ∈ m.fromMandatoryModifiers := hs f hf
  simpa [modifiers, hf'] using hf

/-- Neither of the two touches the deferred events. -/
theorem postFromMandatoryModifiersKeyUp_eventsAtKeyUp (front : Entry) (s : EventSender) :
    (s.postFromMandatoryModifiersKeyUp front).current.eventsAtKeyUp = s.current.eventsAtKeyUp :=
  (posts_postLazyModifierKeyEvents front _ .keyUp true _).deferred

/-- Pressing the mandatory modifiers again keeps nothing for the release. -/
theorem postFromMandatoryModifiersKeyDown_eventsAtKeyUp (front : Entry) (s : EventSender) :
    (s.postFromMandatoryModifiersKeyDown front).current.eventsAtKeyUp = s.current.eventsAtKeyUp :=
  (posts_postLazyModifierKeyEvents front _ .keyDown true _).deferred

/-! ### The restorer -/

omit [Exprtk] [SystemClock] in
/-- An inverse flag is posted as the other half of the pair. -/
theorem inverse_pair (c : Charge) (flags : List ActiveModifierFlag) :
    (flags.map fun f (c : Charge) =>
        c.key (if f.count > 0 then .keyDown else .keyUp) (.ofModifierFlag f.modifierFlag)).sum c +
      ((ModifierFlagManager.inverseActiveModifierFlags flags).map fun f (c : Charge) =>
        c.key (if f.count > 0 then .keyDown else .keyUp) (.ofModifierFlag f.modifierFlag)).sum c =
      0 := by
  induction flags with
  | nil => rfl
  | cons f fs ih =>
      have hpair := c.key_pair (.ofModifierFlag f.modifierFlag)
      have hf : c.key (if f.count > 0 then .keyDown else .keyUp) (.ofModifierFlag f.modifierFlag) +
          c.key (if (ActiveModifierFlag.make f.inverseType f.modifierFlag f.deviceId).count > 0
            then .keyDown else .keyUp) (.ofModifierFlag f.modifierFlag) = 0 := by
        cases ht : f.type <;>
          simp [ActiveModifierFlag.count, ActiveModifierFlag.make, ActiveModifierFlag.inverseType,
            ActiveModifierFlagType.inverse, ht] <;> linarith
      simp only [ModifierFlagManager.inverseActiveModifierFlags, List.map_cons, List.sum_cons,
        Pi.add_apply] at ih ⊢
      have hflag : (ActiveModifierFlag.make f.inverseType f.modifierFlag f.deviceId).modifierFlag =
        f.modifierFlag := rfl
      rw [hflag]
      linarith

/-- The restorer posts around its body, and before that it changes the output only. -/
theorem exists_scopedFromKeyModifierFlagsState (front : Entry) (body : EventSender → EventSender)
    (s : EventSender) :
    ∃ (t : EventSender) (flags : List ActiveModifierFlag), t.current = s.current ∧
      s.scopedFromKeyModifierFlagsState front body =
        (body (t.postActiveModifierFlags front flags)).postActiveModifierFlags front
          (ModifierFlagManager.inverseActiveModifierFlags flags) := by
  unfold scopedFromKeyModifierFlagsState
  generalize s.output.queue.modifierFlagManager.scopedModifierFlags
    s.current.keyDownModifierFlags = pair
  obtain ⟨manager, flags⟩ := pair
  let t : EventSender :=
    { s with
      output.queue.modifierFlagManager :=
        (ModifierFlagManager.inverseActiveModifierFlags flags).foldl
          ModifierFlagManager.pushBackActiveModifierFlag manager }
  exact ⟨t, flags, rfl, rfl⟩

/-- The restorer undoes what it posts. -/
theorem keeps_scopedFromKeyModifierFlagsState (front : Entry) {body : EventSender → EventSender}
    (hbody : ∀ s, Keeps s (body s)) (s : EventSender) :
    Keeps s (s.scopedFromKeyModifierFlagsState front body) := by
  obtain ⟨t, flags, hcurrent, hscoped⟩ := exists_scopedFromKeyModifierFlagsState front body s
  rw [hscoped]
  have ht : Posts s t 0 := .of_current_eq hcurrent
  have hscope := ht.trans (posts_postActiveModifierFlags front flags t)
  have hkeep := hbody (t.postActiveModifierFlags front flags)
  have hundo := posts_postActiveModifierFlags front
    (ModifierFlagManager.inverseActiveModifierFlags flags)
    (body (t.postActiveModifierFlags front flags))
  refine ⟨hundo.frame.trans (hkeep.frame.trans hscope.frame), fun c => ?_,
    fun hs => hundo.legal (hkeep.legal (hscope.legal hs))⟩
  have hbalance := hundo.balance c
  rw [hkeep.balance, hscope.balance, zero_add] at hbalance
  have hpair := inverse_pair c flags
  linarith

/-- Around a body that posts whole pairs the restorer posts whole pairs. -/
theorem posts_scopedFromKeyModifierFlagsState (front : Entry) {body : EventSender → EventSender}
    (hbody : ∀ s, Posts s (body s) 0) (s : EventSender) :
    Posts s (s.scopedFromKeyModifierFlagsState front body) 0 := by
  obtain ⟨t, flags, hcurrent, hscoped⟩ := exists_scopedFromKeyModifierFlagsState front body s
  rw [hscoped]
  have ht : Posts s t 0 := .of_current_eq hcurrent
  have h := ((ht.trans (posts_postActiveModifierFlags front flags t)).trans (hbody _)).trans
    (posts_postActiveModifierFlags front (ModifierFlagManager.inverseActiveModifierFlags flags) _)
  rw [zero_add, add_zero] at h
  refine ⟨⟨h.frame, h.released, fun c => ?_⟩, h.deferred⟩
  have hpair := inverse_pair c flags
  rw [← Pi.add_apply] at hpair
  exact (h.balance c).trans (by rw [hpair]; rfl)

/-- A scope around a body that keeps the press settled keeps it settled. -/
theorem settled_scopedFromKeyModifierFlagsState (front : Entry)
    {body : EventSender → EventSender}
    (hbody : ∀ s, s.current.Settled → (body s).current.Settled) {s : EventSender}
    (hs : s.current.Settled) :
    (s.scopedFromKeyModifierFlagsState front body).current.Settled := by
  obtain ⟨t, flags, hcurrent, hscoped⟩ := exists_scopedFromKeyModifierFlagsState front body s
  rw [hscoped]
  have ht : t.current.Settled := hcurrent ▸ hs
  exact (posts_postActiveModifierFlags front _ _).settled
    (hbody _ ((posts_postActiveModifierFlags front _ _).settled ht))

end EventSender

end Karabiner
