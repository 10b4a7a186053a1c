import Karabiner.Manipulator.Basic
import Karabiner.Manipulator.Basic.Ledger

/-!
# The presses of a manipulator

Which from events the presses of a manipulator hold, and what `manipulate` does to them.

* `Basic.holders` — how many presses hold a from event.
* `SameHeld` — everything that only posts, or only touches timers, leaves the holders alone.
* `Basic.manipulate_spec` — **what `manipulate` can do**: pass, wait, capture the from events
  that its scan has collected, or release the from event of a key_up.
-/

namespace Karabiner

open EventSender

section Posting

variable [Exprtk] [SystemClock] [MachTimebase]

/-! ### The posting functions keep the ledger -/

namespace BasicDefinition

/-- The `to` events keep the ledger, as the modifiers that they release are pressed again or
recorded. -/
theorem keeps_postTo (front : Entry) (toEvents : List ToEventDefinition) (s : EventSender) :
    Keeps s (postTo front toEvents s) := by
  have h := (keeps_postFromMandatoryModifiersKeyUp front s).trans
    (moves_postEventsAtKeyDown front toEvents _).keeps
  unfold postTo
  dsimp only
  split_ifs
  · exact h
  · exact h.trans (keeps_postFromMandatoryModifiersKeyDown front _)

/-- Extra events keep the ledger, with the modifiers released and pressed again around them. -/
theorem keeps_postExtra (front : Entry) (toEvents : List ToEventDefinition) (s : EventSender) :
    Keeps s (postExtra front toEvents s) :=
  ((keeps_postFromMandatoryModifiersKeyUp front s).trans
    (posts_postExtraToEvents front toEvents _).toMoves.keeps).trans
    (keeps_postFromMandatoryModifiersKeyDown front _)

/-- An empty list of extra events posts nothing at all. -/
theorem keeps_postExtraIfAny (front : Entry) (toEvents : List ToEventDefinition)
    (s : EventSender) : Keeps s (postExtraIfAny front toEvents s) := by
  unfold postExtraIfAny
  split_ifs
  · exact (Posts.of_current_eq rfl).toMoves.keeps
  · exact keeps_postExtra front toEvents s

/-- `to_if_alone` keeps the ledger, whether it is posted or not. -/
theorem keeps_postToIfAlone (d : BasicDefinition) (front : Entry) (s : EventSender) :
    Keeps s (d.postToIfAlone front s) := by
  unfold postToIfAlone
  dsimp only
  split_ifs
  · exact keeps_scopedFromKeyModifierFlagsState front (keeps_postExtra front d.toIfAlone) s
  · exact (Posts.of_current_eq rfl).toMoves.keeps

/-- What the first key_up of a press posts keeps the ledger; the press is marked as posted before.
-/
theorem keeps_postKeyUpOnce (d : BasicDefinition) (front : Entry) (s : EventSender) :
    Keeps { s with current.keyUpPosted := true } (d.postKeyUpOnce front s) :=
  (((keeps_postEventsAtKeyUp front _).trans
    (keeps_postFromMandatoryModifiersKeyDown front _)).trans
    (d.keeps_postToIfAlone front _)).trans (keeps_postExtraIfAny front d.toAfterKeyUp _)

/-- The `to_if_held_down` events keep the ledger. -/
theorem keeps_postHeldDown (front : Entry) (toEvents : List ToEventDefinition)
    (s : EventSender) : Keeps s (postHeldDown front toEvents s) :=
  ((keeps_postEventsAtKeyUp front s).trans (keeps_postFromMandatoryModifiersKeyDown front _)).trans
    (keeps_postTo front toEvents _)

/-- What `to_delayed_action` posts are whole pairs. -/
theorem posts_postDelayedAction (front : Entry) (toEvents : List ToEventDefinition)
    (s : EventSender) : Posts s (postDelayedAction front toEvents s) 0 := by
  refine posts_scopedFromKeyModifierFlagsState front (fun s => ?_) s
  have h := ((posts_postLazyModifierKeyEvents front
    (s.current.fromMandatoryModifiers.map .ofModifierFlag) .keyUp true s).trans
    (posts_postExtraToEvents front toEvents _)).trans
    (posts_postLazyModifierKeyEvents front
      (s.current.fromMandatoryModifiers.map .ofModifierFlag) .keyDown true _)
  have hzero : (fun c : Charge =>
        c.keys .keyUp (s.current.fromMandatoryModifiers.map .ofModifierFlag)) + 0 +
      (fun c => c.keys .keyDown (s.current.fromMandatoryModifiers.map .ofModifierFlag)) = 0 := by
    funext c
    have hpair := c.keys_pair (s.current.fromMandatoryModifiers.map .ofModifierFlag)
    simp only [Pi.add_apply, Pi.zero_apply]
    linarith
  rw [hzero] at h
  exact h

theorem keeps_postDelayedAction (front : Entry) (toEvents : List ToEventDefinition)
    (s : EventSender) : Keeps s (postDelayedAction front toEvents s) :=
  (posts_postDelayedAction front toEvents s).toMoves.keeps

/-- A key_up is skipped, or it keeps the ledger and is recorded in `key_up_posted`. -/
theorem postKeyUp_cases (d : BasicDefinition) (front : Entry) (s : EventSender) :
    d.from_.simultaneousOptions.keyUpWhen = .all ∧ s.current.fromEvents ≠ ∅ ∧
        d.postKeyUp front s = s ∨
      (s.current.fromEvents = ∅ ∨ d.from_.simultaneousOptions.keyUpWhen ≠ .all) ∧
        Keeps { s with current.keyUpPosted := true } (d.postKeyUp front s) := by
  have honce : Keeps { s with current.keyUpPosted := true }
      (if s.current.keyUpPosted then s else d.postKeyUpOnce front s) := by
    split_ifs with hposted
    · have hs : { s with current.keyUpPosted := true } = s := by rw [← hposted]
      rw [hs]
      exact (Posts.of_current_eq rfl).toMoves.keeps
    · exact d.keeps_postKeyUpOnce front s
  unfold postKeyUp
  dsimp only
  by_cases hskip : (decide (d.from_.simultaneousOptions.keyUpWhen = .all) &&
      decide (s.current.fromEvents ≠ ∅)) = true
  · rw [if_pos hskip]
    simp only [Bool.and_eq_true, decide_eq_true_eq] at hskip
    exact Or.inl ⟨hskip.1, hskip.2, rfl⟩
  · rw [if_neg hskip]
    generalize (if s.current.keyUpPosted then s else d.postKeyUpOnce front s) = t at honce
    refine Or.inr ⟨?_, ?_⟩
    · simp only [Bool.and_eq_true, decide_eq_true_eq, not_and, not_not] at hskip
      exact or_iff_not_imp_right.mpr fun hall => hskip (not_not.mp hall)
    · split_ifs
      · exact honce.trans (keeps_postExtraIfAny front _ t)
      · exact honce

omit [SystemClock] [MachTimebase] in
/-- The functions do not write the from events. -/
theorem fromEvents_of_keeps {s s' : EventSender} (h : Keeps s s') :
    s'.current.fromEvents = s.current.fromEvents := by
  have hframe := congrArg ManipulatedOriginalEvent.fromEvents h.frame
  exact hframe

/-- The whole posting at a key_up does not write the from events. -/
theorem fromEvents_postKeyUp (d : BasicDefinition) (front : Entry) (s : EventSender) :
    (d.postKeyUp front s).current.fromEvents = s.current.fromEvents := by
  rcases d.postKeyUp_cases front s with ⟨-, -, heq⟩ | ⟨-, hkeeps⟩
  · rw [heq]
  · have hfrom := fromEvents_of_keeps hkeeps
    exact hfrom

end BasicDefinition

end Posting

namespace Basic

/-! ### Holders -/

/-- How many presses hold a from event. -/
def holders (b : Basic) (fe : FromEvent) : ℕ :=
  b.manipulatedOriginalEvents.countP (b.fromEventExists fe)

/-- The list of presses has no duplicates, its pointers are valid, and what a press holds is what
the manipulator maps from. -/
structure WellFormed (b : Basic) : Prop where
  nodup : b.manipulatedOriginalEvents.Nodup
  lt : ∀ id ∈ b.manipulatedOriginalEvents, id < b.objects.length
  matches_ : ∀ id ∈ b.manipulatedOriginalEvents, ∀ fe, b.fromEventExists fe id = true →
    b.definition.from_.testEvent fe.event = true

/-- The two states have the same presses, which hold the same from events. -/
structure SameHeld (b b' : Basic) : Prop where
  definition : b'.definition = b.definition
  validity : b'.validity = b.validity
  list : b'.manipulatedOriginalEvents = b.manipulatedOriginalEvents
  fromEvents : b'.objects.map (·.fromEvents) = b.objects.map (·.fromEvents)

/-- Whether a press holds a from event depends on the from events of the presses only. -/
theorem fromEventExists_eq (b : Basic) (fe : FromEvent) (id : ℕ) :
    b.fromEventExists fe id = ((b.objects.map (·.fromEvents))[id]?).any (fe ∈ ·) := by
  rw [fromEventExists, List.getElem?_map]
  cases b.objects[id]? <;> rfl

namespace SameHeld

variable {b b' b'' : Basic}

theorem refl (b : Basic) : SameHeld b b := ⟨rfl, rfl, rfl, rfl⟩

theorem trans (h : SameHeld b b') (h' : SameHeld b' b'') : SameHeld b b'' :=
  ⟨h'.definition.trans h.definition, h'.validity.trans h.validity, h'.list.trans h.list,
    h'.fromEvents.trans h.fromEvents⟩

theorem fromEventExists (h : SameHeld b b') (fe : FromEvent) :
    b'.fromEventExists fe = b.fromEventExists fe := by
  funext id
  rw [fromEventExists_eq, fromEventExists_eq, h.fromEvents]

/-- As many presses hold a from event. -/
theorem holders (h : SameHeld b b') : b'.holders = b.holders := by
  funext fe
  rw [Basic.holders, Basic.holders, h.fromEventExists, h.list]

/-- No press is added or removed. -/
theorem length (h : SameHeld b b') : b'.objects.length = b.objects.length := by
  have hlength := congrArg List.length h.fromEvents
  rwa [List.length_map, List.length_map] at hlength

/-- The well-formedness is about what is held, so it is kept. -/
theorem wellFormed (h : SameHeld b b') (hb : b.WellFormed) : b'.WellFormed where
  nodup := by rw [h.list]; exact hb.nodup
  lt := by rw [h.list, h.length]; exact hb.lt
  matches_ := by
    rw [h.list, h.definition]
    intro id hid fe hfe
    rw [h.fromEventExists] at hfe
    exact hb.matches_ id hid fe hfe

end SameHeld

/-- An entry is already manipulated if it is a key_down whose from event some press holds. -/
theorem alreadyManipulated_iff (b : Basic) (front : Entry) :
    b.alreadyManipulated front = true ↔
      front.eventType = .keyDown ∧ 0 < b.holders front.fromEvent := by
  simp [alreadyManipulated, holders, List.countP_pos_iff]

/-! ### Capture and release -/

/-- A new press with the from events `fromEvents` is added. -/
structure Adds (b b' : Basic) (fromEvents : Finset FromEvent) : Prop where
  definition : b'.definition = b.definition
  validity : b'.validity = b.validity
  list : b'.manipulatedOriginalEvents = b.manipulatedOriginalEvents ++ [b.objects.length]
  fromEvents : b'.objects.map (·.fromEvents) = b.objects.map (·.fromEvents) ++ [fromEvents]

/-- A new press adds its own from events. -/
theorem adds_pushBack (b : Basic) (m : ManipulatedOriginalEvent) :
    Adds b (b.pushBack m) m.fromEvents :=
  ⟨rfl, rfl, rfl, by simp [pushBack]⟩

namespace Adds

variable {b b' : Basic} {fromEvents : Finset FromEvent}

/-- An addition may stand between two changes that keep what is held. -/
theorem of_sameHeld {b b₁ b₂ b₃ : Basic} {fromEvents : Finset FromEvent}
    (h₁ : SameHeld b b₁) (h₂ : Adds b₁ b₂ fromEvents) (h₃ : SameHeld b₂ b₃) :
    Adds b b₃ fromEvents where
  definition := (h₃.definition.trans h₂.definition).trans h₁.definition
  validity := (h₃.validity.trans h₂.validity).trans h₁.validity
  list := by rw [h₃.list, h₂.list, h₁.list, h₁.length]
  fromEvents := by rw [h₃.fromEvents, h₂.fromEvents, h₁.fromEvents]

/-- The presses of before hold what they have held. -/
theorem fromEventExists_of_lt (h : Adds b b' fromEvents) (fe : FromEvent) {id : ℕ}
    (hid : id < b.objects.length) : b'.fromEventExists fe id = b.fromEventExists fe id := by
  rw [fromEventExists_eq, fromEventExists_eq, h.fromEvents,
    List.getElem?_append_left (by simpa using hid)]

/-- The new press holds exactly the from events that are added. -/
theorem fromEventExists_length (h : Adds b b' fromEvents) (fe : FromEvent) :
    b'.fromEventExists fe b.objects.length = decide (fe ∈ fromEvents) := by
  rw [fromEventExists_eq, h.fromEvents, List.getElem?_append_right (by simp)]
  simp

/-- The new press holds its from events once more. -/
theorem holders (h : Adds b b' fromEvents) (hb : b.WellFormed) (fe : FromEvent) :
    b'.holders fe = b.holders fe + if fe ∈ fromEvents then 1 else 0 := by
  have hold : b.manipulatedOriginalEvents.countP (b'.fromEventExists fe) =
      b.manipulatedOriginalEvents.countP (b.fromEventExists fe) :=
    List.countP_congr fun id hid => by rw [h.fromEventExists_of_lt fe (hb.lt id hid)]
  rw [Basic.holders, h.list, List.countP_append, hold, List.countP_singleton,
    h.fromEventExists_length]
  simp [Basic.holders]

/-- An addition keeps the well-formedness, if the manipulator maps from the new from events. -/
theorem wellFormed (h : Adds b b' fromEvents) (hb : b.WellFormed)
    (hmatches : ∀ fe ∈ fromEvents, b.definition.from_.testEvent fe.event = true) :
    b'.WellFormed where
  nodup := by
    rw [h.list, List.nodup_append]
    refine ⟨hb.nodup, List.nodup_singleton _, fun id hid id' hid' => ?_⟩
    rw [List.mem_singleton.mp hid']
    exact (hb.lt id hid).ne
  lt := by
    have hlength := congrArg List.length h.fromEvents
    simp only [List.length_map, List.length_append, List.length_singleton] at hlength
    rw [h.list, hlength]
    intro id hid
    rcases List.mem_append.mp hid with hid | hid
    · exact (hb.lt id hid).trans (Nat.lt_succ_self _)
    · rw [List.mem_singleton.mp hid]
      exact Nat.lt_succ_self _
  matches_ := by
    rw [h.list, h.definition]
    intro id hid fe hfe
    rcases List.mem_append.mp hid with hid | hid
    · rw [h.fromEventExists_of_lt fe (hb.lt id hid)] at hfe
      exact hb.matches_ id hid fe hfe
    · rw [List.mem_singleton.mp hid, h.fromEventExists_length, decide_eq_true_eq] at hfe
      exact hmatches fe hfe

end Adds

section Erase

variable {b : Basic} {id : ℕ} {fe : FromEvent}

/-- Erasing takes one from event from one press and leaves all others alone. -/
theorem fromEventExists_eraseFromEvent (hid : id < b.objects.length) (fe' : FromEvent) (id' : ℕ) :
    (b.eraseFromEvent id fe).fromEventExists fe' id' =
      (b.fromEventExists fe' id' && !(id' = id && fe' = fe)) := by
  have hm : b.objects[id]? = some b.objects[id] := List.getElem?_eq_getElem hid
  simp only [eraseFromEvent, hm, fromEventExists, List.getElem?_set]
  by_cases hid' : id = id'
  · subst hid'
    simp only [hid, if_true, hm, Finset.mem_erase, decide_true, Bool.true_and]
    by_cases hfe : fe' = fe <;> simp [hfe]
  · have hne : id' ≠ id := fun h => hid' h.symm
    simp [hid', hne]

/-- Erasing a from event that the press holds leaves one holder less, and changes no other
holders. -/
theorem holders_eraseFromEvent (hb : b.WellFormed) (hmem : id ∈ b.manipulatedOriginalEvents)
    (hfe : b.fromEventExists fe id = true) (fe' : FromEvent) :
    (b.eraseFromEvent id fe).holders fe' = b.holders fe' - if fe' = fe then 1 else 0 := by
  have hid := hb.lt id hmem
  have hm : b.objects[id]? = some b.objects[id] := List.getElem?_eq_getElem hid
  have hperm := List.perm_cons_erase hmem
  have hrest : (b.manipulatedOriginalEvents.erase id).countP
        ((b.eraseFromEvent id fe).fromEventExists fe') =
      (b.manipulatedOriginalEvents.erase id).countP (b.fromEventExists fe') := by
    refine List.countP_congr fun id' hid' => ?_
    have hne : id' ≠ id := (hb.nodup.mem_erase_iff.mp hid').1
    rw [fromEventExists_eraseFromEvent hid]
    simp [hne]
  have hbefore : b.holders fe' = (b.manipulatedOriginalEvents.erase id).countP
      (b.fromEventExists fe') + if b.fromEventExists fe' id then 1 else 0 := by
    rw [holders, hperm.countP_eq, List.countP_cons]
  have hself : (b.eraseFromEvent id fe).fromEventExists fe' id = _ :=
    fromEventExists_eraseFromEvent hid fe' id
  -- whether or not the press stays in the list, it counts for what it still holds
  have hafter : (b.eraseFromEvent id fe).holders fe' =
      (b.manipulatedOriginalEvents.erase id).countP (b.fromEventExists fe') +
        if (b.eraseFromEvent id fe).fromEventExists fe' id then 1 else 0 := by
    by_cases hempty : b.objects[id].fromEvents.erase fe = ∅
    · have hlist : (b.eraseFromEvent id fe).manipulatedOriginalEvents =
          b.manipulatedOriginalEvents.erase id := by simp [eraseFromEvent, hm, hempty]
      have hnone : (b.eraseFromEvent id fe).fromEventExists fe' id = false := by
        simp [eraseFromEvent, fromEventExists, hid, hempty]
      rw [holders, hlist, hrest, hnone]
      simp
    · have hlist : (b.eraseFromEvent id fe).manipulatedOriginalEvents =
          b.manipulatedOriginalEvents := by simp [eraseFromEvent, hm, hempty]
      rw [holders, hlist, hperm.countP_eq, List.countP_cons, hrest]
  rw [hafter, hbefore, hself]
  by_cases heq : fe' = fe
  · subst heq
    simp [hfe]
  · simp [heq]

/-- A press that holds nothing any more is removed, so no empty one is left. -/
theorem wellFormed_eraseFromEvent (hb : b.WellFormed) (hmem : id ∈ b.manipulatedOriginalEvents) :
    (b.eraseFromEvent id fe).WellFormed := by
  have hid := hb.lt id hmem
  have hm : b.objects[id]? = some b.objects[id] := List.getElem?_eq_getElem hid
  have hsub : (b.eraseFromEvent id fe).manipulatedOriginalEvents.Sublist
      b.manipulatedOriginalEvents := by
    simp only [eraseFromEvent, hm]
    split_ifs
    · exact List.erase_sublist
    · exact List.Sublist.refl _
  refine ⟨hb.nodup.sublist hsub, fun id' hid' => ?_, fun id' hid' fe' hfe' => ?_⟩
  · simpa [eraseFromEvent, hm] using hb.lt id' (hsub.mem hid')
  · rw [fromEventExists_eraseFromEvent hid, Bool.and_eq_true] at hfe'
    have hdef : (b.eraseFromEvent id fe).definition = b.definition := by simp [eraseFromEvent, hm]
    rw [hdef]
    exact hb.matches_ id' (hsub.mem hid') fe' hfe'.1

end Erase

/-! ### `device_ungrabbed` -/

/-- Everything the device holds is released, and nothing else. -/
theorem holders_handleDeviceUngrabbedEvent (b : Basic) (deviceId : DeviceId) (fe : FromEvent) :
    (b.handleDeviceUngrabbedEvent deviceId).holders fe =
      if fe.deviceId = deviceId then 0 else b.holders fe := by
  have hexists (id : ℕ) (hid : id ∈ b.manipulatedOriginalEvents) :
      (b.handleDeviceUngrabbedEvent deviceId).fromEventExists fe id =
        (fe.deviceId ≠ deviceId && b.fromEventExists fe id) := by
    simp only [handleDeviceUngrabbedEvent, fromEventExists, mapObjects, List.getElem?_mapIdx]
    cases b.objects[id]? with
    | none => simp
    | some m => simp [hid, and_comm]
  rw [holders, manipulatedOriginalEvents_handleDeviceUngrabbedEvent, List.countP_filter]
  -- a press that still holds something stays in the list
  have hcount : b.manipulatedOriginalEvents.countP (fun id =>
        (b.handleDeviceUngrabbedEvent deviceId).fromEventExists fe id &&
          (b.handleDeviceUngrabbedEvent deviceId).objects[id]?.any fun m => m.fromEvents ≠ ∅) =
      b.manipulatedOriginalEvents.countP fun id =>
        fe.deviceId ≠ deviceId && b.fromEventExists fe id := by
    refine List.countP_congr fun id hid => ?_
    rw [← hexists id hid]
    simp only [fromEventExists]
    cases (b.handleDeviceUngrabbedEvent deviceId).objects[id]? with
    | none => simp
    | some m => simpa using fun h => Finset.ne_empty_of_mem h
  rw [hcount]
  split_ifs with hdevice
  · simp [hdevice]
  · simp [hdevice, holders]

theorem wellFormed_handleDeviceUngrabbedEvent {b : Basic} (hb : b.WellFormed)
    (deviceId : DeviceId) : (b.handleDeviceUngrabbedEvent deviceId).WellFormed := by
  have hsub : (b.handleDeviceUngrabbedEvent deviceId).manipulatedOriginalEvents.Sublist
      b.manipulatedOriginalEvents := List.filter_sublist
  refine ⟨hb.nodup.sublist hsub, fun id hid => ?_, fun id hid fe hfe => ?_⟩
  · simpa [handleDeviceUngrabbedEvent, mapObjects] using hb.lt id (hsub.mem hid)
  · refine hb.matches_ id (hsub.mem hid) fe ?_
    simp only [handleDeviceUngrabbedEvent, fromEventExists, mapObjects, List.getElem?_mapIdx]
      at hfe ⊢
    cases hm : b.objects[id]? with
    | none => simp [hm] at hfe
    | some m =>
        simp only [hm, Option.map_some, decide_eq_true_eq] at hfe ⊢
        split_ifs at hfe
        · exact (Finset.mem_filter.mp hfe).1
        · exact hfe

/-! ### What leaves the holders alone -/

/-- A change of the presses that keeps their from events keeps what is held. -/
theorem sameHeld_mapObjects (b : Basic) {f : ManipulatedOriginalEvent → ManipulatedOriginalEvent}
    (hf : ∀ m, (f m).fromEvents = m.fromEvents) : SameHeld b (b.mapObjects f) := by
  refine ⟨rfl, rfl, rfl, List.ext_getElem? fun id => ?_⟩
  simp only [mapObjects, List.getElem?_map, List.getElem?_mapIdx, Option.map_map]
  refine congrArg (fun g => Option.map g b.objects[id]?) (funext fun m => ?_)
  simp only [Function.comp_apply]
  split_ifs
  · exact hf m
  · rfl

/-- `alone_` is no from event. -/
theorem sameHeld_unsetAloneIfNeeded (b : Basic) (event : Event) (eventType : EventType) :
    SameHeld b (b.unsetAloneIfNeeded event eventType) := by
  unfold unsetAloneIfNeeded
  split_ifs
  · exact b.sameHeld_mapObjects fun _ => rfl
  · exact .refl b

/-- Canceling the held down timer forgets its press, and nothing else. -/
theorem sameHeld_cancelHeldDown (b : Basic) (front : Entry) :
    SameHeld b (b.cancelHeldDown front) := by
  unfold cancelHeldDown
  split_ifs
  · exact ⟨rfl, rfl, rfl, rfl⟩
  · exact .refl b

/-- Setting the timer up does not press or release anything. -/
theorem sameHeld_setupHeldDown (b : Basic) (front : Entry) (id : ℕ) :
    SameHeld b (b.setupHeldDown front id) := by
  unfold setupHeldDown
  split
  · exact .refl b
  · dsimp only
    split_ifs <;> exact ⟨rfl, rfl, rfl, rfl⟩

theorem sameHeld_setupDelayedAction (b : Basic) (front : Entry) (id : ℕ) :
    SameHeld b (b.setupDelayedAction front id) := by
  unfold setupDelayedAction
  split
  · exact .refl b
  · dsimp only
    split_ifs
    · exact .refl b
    · exact ⟨rfl, rfl, rfl, rfl⟩

variable [Exprtk]

/-- Posting for a press keeps what is held, if what is posted keeps the from events. -/
theorem sameHeld_send (b : Basic) (id : ℕ) (output : Output) {f : EventSender → EventSender}
    (hf : ∀ s, (f s).current.fromEvents = s.current.fromEvents) :
    SameHeld b (b.send id output f).1 := by
  unfold send
  cases hm : b.objects[id]? with
  | none => exact .refl b
  | some m =>
      obtain ⟨hlt, rfl⟩ := List.getElem?_eq_some_iff.mp hm
      refine ⟨rfl, rfl, rfl, ?_⟩
      have hlt' : id < (b.objects.map (·.fromEvents)).length := by simpa using hlt
      have hfrom : (f { current := b.objects[id], output := output }).current.fromEvents =
          (b.objects.map (·.fromEvents))[id] := by
        rw [hf, List.getElem_map]
      rw [List.map_set, hfrom]
      exact List.set_getElem_self _

/-- The end of `manipulate` posts and sets the timers up. -/
theorem sameHeld_finish (b : Basic) (front : Entry) (id : ℕ)
    {f : Entry → EventSender → EventSender}
    (hf : ∀ front s, (f front s).current.fromEvents = s.current.fromEvents) (output : Output) :
    SameHeld b (b.finish front id f output).basic :=
  ((b.sameHeld_send id output (hf { front with validity := .invalid })).trans
    (sameHeld_setupHeldDown _ _ id)).trans (sameHeld_setupDelayedAction _ _ id)

variable [SystemClock] [MachTimebase]

/-- The events of `to_delayed_action` are posted for their press, which holds what it has held. -/
theorem sameHeld_postDelayedEvents (b : Basic) (events : List ToEventDefinition)
    (output : Output) : SameHeld b (b.postDelayedEvents events output).1 := by
  unfold postDelayedEvents
  dsimp only
  split
  · rename_i front id _ _
    have hsend := b.sameHeld_send id output fun s =>
      BasicDefinition.fromEvents_of_keeps (BasicDefinition.keeps_postDelayedAction front events s)
    exact hsend.trans ⟨rfl, rfl, rfl, rfl⟩
  · exact ⟨rfl, rfl, rfl, rfl⟩

/-- Canceling may post, and holds what was held. -/
theorem sameHeld_cancelDelayedAction (b : Basic) (front : Entry) (output : Output) :
    SameHeld b (b.cancelDelayedAction front output).1 := by
  have hcases := b.cancelsDelayedAction front output
  generalize b.cancelDelayedAction front output = r at hcases
  cases hcases with
  | idle => exact .refl b
  | @posts b₁ _ hnext =>
      have hsame : SameHeld b b₁ := by
        rw [hnext]
        exact ⟨rfl, rfl, rfl, rfl⟩
      exact hsame.trans (b₁.sameHeld_postDelayedEvents _ output)

/-- **What precedes the decision** of `manipulate` changes nothing that is held. -/
theorem sameHeld_observe (b : Basic) (front : Entry) (output : Output) :
    SameHeld b (b.observe front output).1 :=
  ((b.sameHeld_unsetAloneIfNeeded front.event front.eventType).trans
    (sameHeld_cancelHeldDown _ front)).trans (sameHeld_cancelDelayedAction _ front output)

/-- The held down timer presses and releases no from event. -/
theorem sameHeld_fireHeldDown (b : Basic) (heldDownId : ℕ) (output : Output) :
    SameHeld b (b.fireHeldDown heldDownId output).1 := by
  have hcases := b.firesHeldDown heldDownId output
  generalize b.fireHeldDown heldDownId output = r at hcases
  cases hcases with
  | cancelled => exact .refl b
  | idle => exact ⟨rfl, rfl, rfl, rfl⟩
  | @posts b₁ toEvents front id herased =>
      have hsame : SameHeld b b₁ := by
        rw [herased]
        exact ⟨rfl, rfl, rfl, rfl⟩
      exact hsame.trans (b₁.sameHeld_send id output fun s => BasicDefinition.fromEvents_of_keeps
        (BasicDefinition.keeps_postHeldDown front toEvents s))

theorem sameHeld_fireDelayedAction (b : Basic) (delayedActionId : ℕ) (output : Output) :
    SameHeld b (b.fireDelayedAction delayedActionId output).1 := by
  have hcases := b.firesDelayedAction delayedActionId output
  generalize b.fireDelayedAction delayedActionId output = r at hcases
  cases hcases with
  | cancelled => exact .refl b
  | idle => exact ⟨rfl, rfl, rfl, rfl⟩
  | @posts b₁ _ herased =>
      have hsame : SameHeld b b₁ := by
        rw [herased]
        exact ⟨rfl, rfl, rfl, rfl⟩
      exact hsame.trans (b₁.sameHeld_postDelayedEvents _ output)

/-! ### What `manipulate` does to the presses -/

/-- The entry with another input delay, which is all that `manipulate` changes in an entry that
it does not consume. -/
def Delayed (front front' : Entry) : Prop :=
  ∃ d, front' = { front with eventTimeStamp.inputDelayDuration := d }

/-- The entry after it has been consumed. -/
def Consumed (front front' : Entry) : Prop :=
  ∃ d, front' =
    { front with eventTimeStamp.inputDelayDuration := d, validity := .invalid }

/-- The end of the time window of a scan. -/
def endTimeStamp (b : Basic) (front : Entry) : AbsoluteTime :=
  front.eventTimeStamp.timeStamp + b.definition.simultaneousThreshold

/-- The entry is one that a capture of `front` by the manipulator collects. -/
def Collects (b : Basic) (front : Entry) (rest : List Entry) (e : Entry) : Prop :=
  IsCollected b.definition.from_ (window (b.endTimeStamp front) (front :: rest)) e

/-- The four outcomes of `manipulate`, in terms of the presses. -/
inductive Outcome (b : Basic) (front : Entry) (rest : List Entry)
    (r : Manipulated) : Prop
  | passed (result : r.result = .passed) (delayed : Delayed front r.front)
      (held : SameHeld b r.basic)
      (unheld : front.validity = .valid → front.eventType = .keyUp →
        b.holders front.fromEvent = 0)
  | waits (result : r.result = .needsWaitUntilTimeStamp) (delayed : Delayed front r.front)
      (held : SameHeld b r.basic) (valid : front.validity = .valid)
      (down : front.eventType = .keyDown)
  | captured (fromEvents : Finset FromEvent) (result : r.result = .manipulated)
      (consumed : Consumed front r.front) (adds : Adds b r.basic fromEvents)
      (valid : front.validity = .valid) (down : front.eventType = .keyDown)
      (target : b.definition.from_.testEvent front.event = true) (enabled : b.validity = .valid)
      (collected : ∀ fe, fe ∈ fromEvents ↔ ∃ e, b.Collects front rest e ∧ e.fromEvent = fe)
  | released (result : r.result = .manipulated) (consumed : Consumed front r.front)
      (valid : front.validity = .valid) (up : front.eventType = .keyUp)
      (held : 0 < b.holders front.fromEvent)
      (holders : ∀ fe, r.basic.holders fe =
        b.holders fe - if fe = front.fromEvent then 1 else 0)
      (wellFormed : r.basic.WellFormed) (definition : r.basic.definition = b.definition)
      (validity : r.basic.validity = b.validity)
      (length : r.basic.objects.length = b.objects.length)

omit [Exprtk] [SystemClock] [MachTimebase] in
/-- The from events of a detection are the collected ones. -/
theorem mem_detect_iff {d : FromEventDefinition} {endTimeStamp : AbsoluteTime}
    {entries : List Entry} {fromEvents : Finset FromEvent} {needsWaitKeyUp : Bool}
    (h : d.detect endTimeStamp entries = some (fromEvents, needsWaitKeyUp)) (fe : FromEvent) :
    fe ∈ fromEvents ↔ ∃ e, IsCollected d (window endTimeStamp entries) e ∧ e.fromEvent = fe := by
  unfold FromEventDefinition.detect at h
  rw [scan_eq_foldlM] at h
  cases hs : (window endTimeStamp entries).foldlM (Scan.step d) {} with
  | none => simp [hs] at h
  | some s =>
      have hfrom : s.fromEvents = fromEvents := by
        simp only [hs] at h
        split_ifs at h <;> cases h <;> rfl
      rw [← hfrom]
      exact Scan.mem_fromEvents_iff hs fe

omit [Exprtk] [SystemClock] in
/-- The window of a scan does not end before the front entry. -/
theorem simultaneousThreshold_nonneg (d : BasicDefinition) : 0 ≤ d.simultaneousThreshold :=
  makeAbsoluteTimeDuration_nonneg d.parameters.threshold_nonneg

omit [Exprtk] [SystemClock] in
/-- A capture collects the front entry itself. -/
theorem collects_front {b : Basic} {front : Entry} (valid : front.validity = .valid)
    (down : front.eventType = .keyDown)
    (target : b.definition.from_.testEvent front.event = true) (rest : List Entry) :
    b.Collects front rest front := by
  have ht : front.eventTimeStamp.timeStamp ≤ b.endTimeStamp front :=
    le_add_of_nonneg_right (simultaneousThreshold_nonneg b.definition)
  have hread : window (b.endTimeStamp front) (front :: rest) =
      front :: window (b.endTimeStamp front) rest := by
    simp [window, valid, ht]
  rw [Collects, hread]
  exact (IsCollected.cons_iff front).mpr (Or.inl ⟨rfl, down, target⟩)

/-- `capture` adds a press with its from events. -/
theorem adds_capture (b : Basic) (front : Entry) (fromEvents : Finset FromEvent)
    (fromMandatoryModifiers : List ModifierFlag) (output : Output) :
    Adds b (b.capture front fromEvents fromMandatoryModifiers output).basic fromEvents :=
  Adds.of_sameHeld (.refl b) (adds_pushBack b _)
    (sameHeld_finish _ front _ (fun front s => BasicDefinition.fromEvents_of_keeps
      (BasicDefinition.keeps_postTo front b.definition.to_ s)) output)

omit [Exprtk] [SystemClock] [MachTimebase] in
/-- `eraseFromEvent` keeps the definition, the validity and the number of presses. -/
theorem eraseFromEvent_keeps (b : Basic) (id : ℕ) (fe : FromEvent) :
    (b.eraseFromEvent id fe).definition = b.definition ∧
      (b.eraseFromEvent id fe).validity = b.validity ∧
        (b.eraseFromEvent id fe).objects.length = b.objects.length := by
  unfold eraseFromEvent
  cases b.objects[id]? with
  | none => exact ⟨rfl, rfl, rfl⟩
  | some m => exact ⟨rfl, rfl, List.length_set⟩

/-- The case of a key_up that releases a from event of a press. -/
theorem outcome_released {b : Basic} (hb : b.WellFormed) {front : Entry} (rest : List Entry)
    (output : Output) (valid : front.validity = .valid) (up : front.eventType = .keyUp) {id : ℕ}
    (hfind : b.manipulatedOriginalEvents.find? (b.fromEventExists front.fromEvent) = some id) :
    Outcome b front rest
      ((b.eraseFromEvent id front.fromEvent).finish front id b.definition.postKeyUp output) := by
  have hmem := List.mem_of_find?_eq_some hfind
  have hfe : b.fromEventExists front.fromEvent id = true := List.find?_some hfind
  have hfinish := sameHeld_finish (b.eraseFromEvent id front.fromEvent) front id
    b.definition.fromEvents_postKeyUp output
  obtain ⟨hdefinition, hvalidity, hlength⟩ := b.eraseFromEvent_keeps id front.fromEvent
  refine .released rfl ⟨front.eventTimeStamp.inputDelayDuration, rfl⟩ valid up
    (List.countP_pos_iff.mpr ⟨id, hmem, hfe⟩) (fun fe => ?_)
    (hfinish.wellFormed (wellFormed_eraseFromEvent hb hmem))
    (hfinish.definition.trans hdefinition) (hfinish.validity.trans hvalidity)
    (hfinish.length.trans hlength)
  rw [hfinish.holders]
  exact holders_eraseFromEvent hb hmem hfe fe

/-- The outcome in each of the cases.  Only a key_up looks at the presses. -/
theorem Manipulates.outcome {b : Basic} {front : Entry} {rest : List Entry} {output : Output}
    {now : AbsoluteTime} {r : Manipulated} (h : Manipulates b front rest output now r)
    (hb : front.eventType = .keyUp → b.WellFormed) : Outcome b front rest r := by
  cases h with
  | passed hdelayed _ hunheld =>
      refine .passed rfl (exists_inputDelay hdelayed) (.refl b) fun valid up => ?_
      refine List.countP_eq_zero.mpr fun id hid hfe => ?_
      by_cases target : b.definition.from_.testEvent front.event = true
      · exact List.find?_eq_none.mp (hunheld valid up target) id hid hfe
      · -- a press only holds what the manipulator maps from
        exact target ((hb up).matches_ id hid _ hfe)
  | waits _ valid down => exact .waits rfl ⟨_, rfl⟩ (.refl b) valid down
  | captured hdelayed _ valid down target enabled hdetect =>
      obtain ⟨d, rfl⟩ := exists_inputDelay hdelayed
      exact .captured _ rfl ⟨d, rfl⟩ (b.adds_capture _ _ _ _) valid down target enabled
        (mem_detect_iff hdetect)
  | released valid up _ hfind => exact outcome_released (hb up) rest output valid up hfind

omit [SystemClock] in
/-- An outcome of the state after `observe` is one of the state before. -/
theorem Outcome.of_sameHeld {b b₁ : Basic} {front : Entry} {rest : List Entry} {r : Manipulated}
    (h : SameHeld b b₁) (ho : Outcome b₁ front rest r) : Outcome b front rest r := by
  cases ho with
  | passed result delayed held unheld =>
      exact .passed result delayed (h.trans held) (h.holders ▸ unheld)
  | waits result delayed held valid down =>
      exact .waits result delayed (h.trans held) valid down
  | captured fromEvents result consumed adds valid down target enabled collected =>
      refine .captured fromEvents result consumed (.of_sameHeld h adds (.refl _)) valid down
        (h.definition ▸ target) (h.validity ▸ enabled) fun fe => ?_
      simpa only [Collects, endTimeStamp, h.definition] using collected fe
  | released result consumed valid up held holders wellFormed definition validity length =>
      rw [h.holders] at held holders
      exact .released result consumed valid up held holders wellFormed
        (definition.trans h.definition) (validity.trans h.validity) (length.trans h.length)

/-- **What `manipulate` can do** to the presses of a manipulator. -/
theorem manipulate_spec {b : Basic} (hb : b.WellFormed) (front : Entry) (rest : List Entry)
    (output : Output) (now : AbsoluteTime) :
    Outcome b front rest (b.manipulate front rest output now) := by
  have hobserve := b.sameHeld_observe front output
  exact .of_sameHeld hobserve
    ((b.manipulates_manipulate front rest output now).outcome fun _ => hobserve.wellFormed hb)

end Basic

end Karabiner
