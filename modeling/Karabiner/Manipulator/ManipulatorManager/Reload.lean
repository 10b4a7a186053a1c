import Karabiner.Manipulator.ManipulatorManager.Presses

/-!
# Reloading the configuration while keys are held

A reload invalidates the manipulators and inserts new ones.  An invalid manipulator stays in the
list while it is active, only handles key_ups, and ignores its validity there.

* `Slot.Evolves`, `Connection.evolution_step` — what a step makes of every manipulator.
* `Connection.manipulate_restrict` — a key_up commutes with taking away the manipulators that are
  newer than the press, and with making the others valid again.
* `Connection.run_reload` — both, in every run.
-/

namespace Karabiner

namespace Basic

/-! ### A key_up does not read the validity -/

/-- The manipulator, valid again. -/
def enable (b : Basic) : Basic := { b with validity := .valid }

@[simp] theorem holders_enable (b : Basic) : b.enable.holders = b.holders := rfl

/-- Making a manipulator valid again keeps it well-formed. -/
theorem wellFormed_enable {b : Basic} (hb : b.WellFormed) : b.enable.WellFormed :=
  ⟨hb.nodup, hb.lt, hb.matches_⟩

variable [Exprtk] [SystemClock] [MachTimebase]

/-- A key_up of a momentary switch is nothing to observe. -/
theorem observe_keyUp (b : Basic) {front : Entry} (up : front.eventType = .keyUp)
    (hevent : ∃ e, front.event = .momentarySwitchEvent e) (output : Output) :
    b.observe front output = (b, output) := by
  obtain ⟨e, he⟩ := hevent
  have halone : b.unsetAloneIfNeeded front.event front.eventType = b := by
    simp [unsetAloneIfNeeded, unsetsAlone, he, up]
  have hcancel : b.cancelHeldDown front = b := by simp [cancelHeldDown, up]
  have hdelayed : b.cancelDelayedAction front output = (b, output) := by
    unfold cancelDelayedAction
    cases b.definition.toDelayedAction <;> simp [up]
  rw [observe, halone, hcancel, hdelayed]

/-- A manipulator that does not hold the from event lets the key_up pass. -/
theorem manipulate_keyUp_of_unheld {b : Basic} {front : Entry} (up : front.eventType = .keyUp)
    (hevent : ∃ e, front.event = .momentarySwitchEvent e)
    (hunheld : front.validity = .valid → b.holders front.fromEvent = 0) (rest : List Entry)
    (output : Output) (now : AbsoluteTime) :
    b.manipulate front rest output now = ⟨.passed, b, front, output⟩ := by
  rw [manipulate, b.observe_keyUp up hevent]
  dsimp only
  split_ifs with htarget
  · rfl
  · have hvalid : front.validity = .valid := by
      cases hv : front.validity with
      | valid => rfl
      | invalid => simp [hv] at htarget
    have hfind : b.manipulatedOriginalEvents.find? (b.fromEventExists front.fromEvent) = none :=
      List.find?_eq_none.mpr fun id hid => List.countP_eq_zero.mp (hunheld hvalid) id hid
    simp only [up, manipulateKeyUp, hfind]

/-- A manipulator that holds the from event releases it. -/
theorem manipulate_keyUp_of_held {b : Basic} (hb : b.WellFormed) {front : Entry}
    (valid : front.validity = .valid) (up : front.eventType = .keyUp)
    (hevent : ∃ e, front.event = .momentarySwitchEvent e) (hheld : 0 < b.holders front.fromEvent)
    (rest : List Entry) (output : Output) (now : AbsoluteTime) :
    b.manipulate front rest output now = b.manipulateKeyUp front output ∧
      (b.manipulateKeyUp front output).result = .manipulated ∧
      (b.manipulateKeyUp front output).front = { front with validity := .invalid } := by
  obtain ⟨id, hid, hfe⟩ := List.countP_pos_iff.mp hheld
  have htest : b.definition.from_.testEvent front.event = true := hb.matches_ id hid _ hfe
  refine ⟨?_, ?_⟩
  · rw [manipulate, b.observe_keyUp up hevent]
    simp [valid, htest, up]
  · unfold manipulateKeyUp
    cases hfind : b.manipulatedOriginalEvents.find? (b.fromEventExists front.fromEvent) with
    | none => exact absurd hfe (by simpa using List.find?_eq_none.mp hfind id hid)
    | some id => exact ⟨rfl, rfl⟩

/-- The key_up case commutes with making the manipulator valid again. -/
theorem manipulateKeyUp_enable (b : Basic) (front : Entry) (output : Output) :
    b.enable.manipulateKeyUp front output =
      { b.manipulateKeyUp front output with
        basic := (b.manipulateKeyUp front output).basic.enable } := by
  have herase (id : ℕ) (fe : FromEvent) :
      b.enable.eraseFromEvent id fe = (b.eraseFromEvent id fe).enable := by
    unfold eraseFromEvent
    simp only [enable]
    cases b.objects[id]? <;> rfl
  have hfinish (b : Basic) (id : ℕ) (f : Entry → EventSender → EventSender) :
      b.enable.finish front id f output =
        { b.finish front id f output with
          basic := (b.finish front id f output).basic.enable } := by
    have hsend (front : Entry) : b.enable.send id output (f front) =
        ((b.send id output (f front)).1.enable, (b.send id output (f front)).2) := by
      unfold send
      simp only [enable]
      cases b.objects[id]? <;> rfl
    have hheld (b : Basic) (front : Entry) :
        b.enable.setupHeldDown front id = (b.setupHeldDown front id).enable := by
      unfold setupHeldDown
      simp only [enable]
      cases b.definition.toIfHeldDown with
      | none => rfl
      | some toEvents =>
          dsimp only
          split_ifs <;> rfl
    have hdelayed (b : Basic) (front : Entry) :
        b.enable.setupDelayedAction front id = (b.setupDelayedAction front id).enable := by
      unfold setupDelayedAction
      simp only [enable]
      cases b.definition.toDelayedAction with
      | none => rfl
      | some action =>
          dsimp only
          split_ifs <;> rfl
    unfold finish
    simp only [hsend, hheld, hdelayed]
  have hexists : b.enable.fromEventExists = b.fromEventExists := rfl
  have hlist : b.enable.manipulatedOriginalEvents = b.manipulatedOriginalEvents := rfl
  unfold manipulateKeyUp
  rw [hexists, hlist]
  cases b.manipulatedOriginalEvents.find? (b.fromEventExists front.fromEvent) with
  | none => rfl
  | some id =>
      dsimp only
      rw [herase, hfinish]
      rfl

end Basic

namespace Slot

/-! ### Taking newer manipulators away -/

/-- The manipulator, valid again. -/
def enable (slot : Slot) : Slot := { slot with basic := slot.basic.enable }

/-- The manipulators with serial numbers below the bound, all of them valid. -/
def restrict (bound : ℕ) (slots : List Slot) : List Slot :=
  (slots.filter fun slot => slot.serial < bound).map enable

/-- A manipulator from before the reload is kept and made valid. -/
theorem restrict_cons_of_lt {bound : ℕ} {slot : Slot} (h : slot.serial < bound)
    (slots : List Slot) : restrict bound (slot :: slots) = slot.enable :: restrict bound slots := by
  simp [restrict, h]

/-- The list is in the order of the insertions. -/
def Sorted (slots : List Slot) : Prop := slots.Pairwise fun s s' => s.serial < s'.serial

variable [Exprtk] [SystemClock] [MachTimebase]

/-- Every manipulator lets a key_up pass that has been consumed. -/
theorem manipulateAll_of_unheld {front : Entry} (up : front.eventType = .keyUp)
    (hevent : ∃ e, front.event = .momentarySwitchEvent e) (hinvalid : front.validity = .invalid)
    (rest : List Entry) (now : AbsoluteTime) (slots : List Slot) (output : Output) :
    manipulateAll rest now slots front output = ⟨false, slots, front, output⟩ := by
  have hvalid : ¬ front.validity = .valid := by rw [hinvalid]; decide
  induction slots with
  | nil => rfl
  | cons slot slots ih =>
      rw [manipulateAll, Basic.manipulate_keyUp_of_unheld up hevent fun hv => absurd hv hvalid]
      dsimp only
      rw [if_neg (by decide), ih]

/-- **The loop over the manipulators at a key_up** does the same without the newer manipulators. -/
theorem manipulateAll_restrict {slots : List Slot} (hwf : WellFormed slots)
    (hsorted : Sorted slots) {front : Entry} (valid : front.validity = .valid)
    (up : front.eventType = .keyUp) (hevent : ∃ e, front.event = .momentarySwitchEvent e)
    {bound : ℕ}
    (hheld : ∃ slot ∈ slots, slot.serial < bound ∧ 0 < slot.basic.holders front.fromEvent)
    (rest : List Entry) (now : AbsoluteTime) (output : Output) :
    let p := manipulateAll rest now slots front output
    p.waits = false ∧
      manipulateAll rest now (restrict bound slots) front output =
        { p with slots := restrict bound p.slots } ∧
      ∃ slot, captor rest now slots front output = some slot ∧
        captor rest now (restrict bound slots) front output = some slot.enable := by
  induction slots with
  | nil =>
      obtain ⟨slot, hslot, -⟩ := hheld
      exact absurd hslot List.not_mem_nil
  | cons slot slots ih =>
      obtain ⟨s, hs, hbound, hpos⟩ := hheld
      have hlt : slot.serial < bound := by
        rcases List.mem_cons.mp hs with rfl | hs
        · exact hbound
        · exact ((List.pairwise_cons.mp hsorted).1 s hs).trans hbound
      have hb := hwf slot List.mem_cons_self
      rw [restrict_cons_of_lt hlt]
      simp only [manipulateAll, captor]
      by_cases hslot : 0 < slot.basic.holders front.fromEvent
      · -- this manipulator consumes the key_up, the others see an invalid entry
        obtain ⟨hmanipulate, hresult, hfront⟩ :=
          Basic.manipulate_keyUp_of_held hb valid up hevent hslot rest output now
        have henable := (Basic.manipulate_keyUp_of_held (Basic.wellFormed_enable hb) valid up
          hevent hslot rest output now).1
        have hrest (slots : List Slot) (output : Output) :=
          @manipulateAll_of_unheld _ _ _ { front with validity := .invalid } up hevent rfl rest now
            slots output
        change slot.enable.basic.manipulate front rest output now = _ at henable
        rw [hmanipulate, henable, Basic.manipulateKeyUp_enable]
        simp only [hresult, hfront, hrest]
        refine ⟨rfl, ?_, slot, rfl, rfl⟩
        have hcons := @restrict_cons_of_lt bound
          { slot with basic := (slot.basic.manipulateKeyUp front output).basic } hlt slots
        rw [if_neg (by decide), if_neg (by decide)]
        dsimp only
        rw [hcons]
        rfl
      · have hzero : slot.basic.holders front.fromEvent = 0 := by omega
        have hs : s ∈ slots := by
          rcases List.mem_cons.mp hs with rfl | hs
          · exact absurd hpos hslot
          · exact hs
        have hmanipulate := Basic.manipulate_keyUp_of_unheld up hevent (fun _ => hzero) rest output
          now
        have henable := Basic.manipulate_keyUp_of_unheld (b := slot.basic.enable) up hevent
          (fun _ => hzero) rest output now
        obtain ⟨hwaits, hrestrict, hcaptor⟩ := ih (fun s hs => hwf s (List.mem_cons_of_mem _ hs))
          (List.pairwise_cons.mp hsorted).2 ⟨s, hs, hbound, hpos⟩
        change slot.enable.basic.manipulate front rest output now = _ at henable
        rw [hmanipulate, henable]
        dsimp only
        rw [if_neg (by decide), if_neg (by decide), hrestrict]
        refine ⟨hwaits, ?_, hcaptor⟩
        rw [restrict_cons_of_lt hlt]
        rfl

/-! ### What becomes of a manipulator -/

omit [Exprtk] [SystemClock] [MachTimebase] in
/-- The same manipulator in a later state: once invalid, it stays so and creates no press. -/
structure Evolves (slot slot' : Slot) : Prop where
  serial : slot'.serial = slot.serial
  definition : slot'.basic.definition = slot.basic.definition
  invalid : slot.basic.validity = .invalid → slot'.basic.validity = .invalid ∧
    slot'.basic.objects.length = slot.basic.objects.length

omit [Exprtk] [SystemClock] [MachTimebase] in
/-- A change that keeps what is held. -/
theorem Evolves.of_sameHeld {slot : Slot} {b : Basic} (h : Basic.SameHeld slot.basic b) :
    Evolves slot { slot with basic := b } :=
  ⟨rfl, h.definition, fun hinvalid => ⟨h.validity.trans hinvalid, h.length⟩⟩

omit [Exprtk] [SystemClock] [MachTimebase] in
theorem Evolves.refl (slot : Slot) : Evolves slot slot := .of_sameHeld (.refl slot.basic)

omit [Exprtk] [SystemClock] [MachTimebase] in
/-- A manipulator is as active as before if it holds the same. -/
theorem active_of_sameHeld {b b' : Basic} (h : Basic.SameHeld b b') : b'.active = b.active := by
  rw [Basic.active, Basic.active, h.list]

/-- Manipulation creates a press only where the manipulator is valid. -/
theorem evolves_manipulate {slot : Slot} (hwf : slot.basic.WellFormed) (front : Entry)
    (rest : List Entry) (output : Output) (now : AbsoluteTime) :
    Evolves slot { slot with basic := (slot.basic.manipulate front rest output now).basic } := by
  cases Basic.manipulate_spec hwf front rest output now with
  | passed _ _ held => exact .of_sameHeld held
  | waits _ _ held => exact .of_sameHeld held
  | captured _ _ _ adds _ _ _ enabled =>
      exact ⟨rfl, adds.definition, fun hinvalid => absurd (hinvalid.symm.trans enabled) (by decide)⟩
  | released _ _ _ _ _ _ _ definition validity length =>
      exact ⟨rfl, definition, fun hinvalid => ⟨validity.trans hinvalid, length⟩⟩

/-- If the loop stops to wait, no manipulator has lost its last press. -/
theorem evolves_manipulateAll (rest : List Entry) (now : AbsoluteTime) {slots : List Slot}
    (hwf : WellFormed slots) (front : Entry) (output : Output) :
    List.Forall₂ (fun slot slot' => Evolves slot slot' ∧
        ((manipulateAll rest now slots front output).waits = true →
          slot'.basic.active = slot.basic.active))
      slots (manipulateAll rest now slots front output).slots := by
  induction slots generalizing front output with
  | nil => exact .nil
  | cons slot slots ih =>
      have hb := hwf slot List.mem_cons_self
      have hslots : WellFormed slots := fun s hs => hwf s (List.mem_cons_of_mem _ hs)
      have hevolves := evolves_manipulate hb front rest output now
      unfold manipulateAll
      dsimp only
      by_cases hwaits : (slot.basic.manipulate front rest output now).result =
          .needsWaitUntilTimeStamp
      · rw [if_pos hwaits]
        refine .cons ⟨hevolves, fun _ => ?_⟩
          (List.forall₂_same.mpr fun s _ => ⟨.refl s, fun _ => rfl⟩)
        cases Basic.manipulate_spec hb front rest output now with
        | passed _ _ held => exact active_of_sameHeld held
        | waits _ _ held => exact active_of_sameHeld held
        | captured _ result => exact absurd (hwaits.symm.trans result) (by decide)
        | released result => exact absurd (hwaits.symm.trans result) (by decide)
      · rw [if_neg hwaits]
        refine .cons ⟨hevolves, fun hrest => ?_⟩ (ih hslots _ _)
        have hconsumed : ∀ {front' : Entry}, Basic.Consumed front front' → ∀ output,
            (manipulateAll rest now slots front' output).waits = false := by
          rintro _ ⟨d, rfl⟩ output
          exact (manipulateAll_invalid rest now hslots rfl output).1
        cases Basic.manipulate_spec hb front rest output now with
        | passed _ _ held => exact active_of_sameHeld held
        | waits _ _ held => exact active_of_sameHeld held
        | captured _ _ consumed =>
            exact absurd (hrest.symm.trans (hconsumed consumed _)) (by decide)
        | released _ consumed =>
            exact absurd (hrest.symm.trans (hconsumed consumed _)) (by decide)

end Slot

/-- What stands on the left of a pointwise relation is related to something on the right. -/
theorem exists_of_forall₂ {α β : Type*} {R : α → β → Prop} {l : List α} {l' : List β}
    (h : List.Forall₂ R l l') {a : α} (ha : a ∈ l) : ∃ b ∈ l', R a b := by
  induction h with
  | nil => exact absurd ha List.not_mem_nil
  | @cons a' b l l' hab _ ih =>
      rcases List.mem_cons.mp ha with rfl | ha
      · exact ⟨b, List.mem_cons_self, hab⟩
      · obtain ⟨b', hb', hrel⟩ := ih ha
        exact ⟨b', List.mem_cons_of_mem _ hb', hrel⟩

namespace ManipulatorManager

/-- What a step makes of the list of manipulators: every manipulator evolves, one may be inserted,
and some may be removed, but none that was active. -/
def Evolution (m m' : ManipulatorManager) : Prop :=
  ∃ (l fresh : List Slot) (keep : Slot → Bool),
    m'.manipulators = (l ++ fresh).filter keep ∧
    List.Forall₂ (fun slot slot' => slot.Evolves slot' ∧
      (slot.basic.active = true → keep slot' = true)) m.manipulators l ∧
    (fresh = [] ∧ m'.nextSerial = m.nextSerial ∨
      ∃ slot, fresh = [slot] ∧ slot.serial = m.nextSerial ∧ m'.nextSerial = m.nextSerial + 1)

/-- The manipulators are in the order of their insertions. -/
def Sorted (m : ManipulatorManager) : Prop :=
  Slot.Sorted m.manipulators ∧ ∀ slot ∈ m.manipulators, slot.serial < m.nextSerial

namespace Evolution

variable {m m' : ManipulatorManager}

/-- All manipulators evolve. -/
theorem of_forall₂ {slots : List Slot} (h : List.Forall₂ Slot.Evolves m.manipulators slots) :
    Evolution m { m with manipulators := slots } :=
  ⟨slots, [], fun _ => true, by simp, h.imp fun _ _ h => ⟨h, fun _ => rfl⟩, Or.inl ⟨rfl, rfl⟩⟩

/-- All manipulators evolve and stay as active as they are, then the invalid ones are removed. -/
theorem removeInvalidManipulators {slots : List Slot}
    (h : List.Forall₂ (fun slot slot' => slot.Evolves slot' ∧
      slot'.basic.active = slot.basic.active) m.manipulators slots) :
    Evolution m ({ m with manipulators := slots }.removeInvalidManipulators) := by
  refine ⟨slots, [], _, by rw [List.append_nil]; rfl, h.imp fun slot slot' h => ⟨h.1, fun ha => ?_⟩,
    Or.inl ⟨rfl, rfl⟩⟩
  simp [h.2, ha]

/-- A manipulator is inserted. -/
theorem pushBackManipulator (m : ManipulatorManager) (d : BasicDefinition) :
    Evolution m (m.pushBackManipulator d) := by
  refine ⟨m.manipulators, [⟨m.nextSerial, { definition := d }⟩], fun _ => true, ?_,
    List.forall₂_same.mpr fun slot _ => ⟨.refl slot, fun _ => rfl⟩, Or.inr ⟨_, rfl, rfl, rfl⟩⟩
  rw [List.filter_true]
  rfl

/-- An active manipulator is still there. -/
theorem exists_of_active (h : Evolution m m') {slot : Slot} (hslot : slot ∈ m.manipulators)
    (hactive : slot.basic.active = true) : ∃ slot' ∈ m'.manipulators, slot.Evolves slot' := by
  obtain ⟨l, fresh, keep, heq, hl, -⟩ := h
  obtain ⟨slot', hslot', hevolves, hkeep⟩ := exists_of_forall₂ hl hslot
  refine ⟨slot', ?_, hevolves⟩
  rw [heq, List.mem_filter]
  exact ⟨List.mem_append_left _ hslot', hkeep hactive⟩

/-- Every manipulator was there before, or has a new serial number. -/
theorem exists_or_fresh (h : Evolution m m') {slot' : Slot} (hslot' : slot' ∈ m'.manipulators) :
    (∃ slot ∈ m.manipulators, slot.Evolves slot') ∨ slot'.serial = m.nextSerial := by
  obtain ⟨l, fresh, keep, heq, hl, hfresh⟩ := h
  rw [heq] at hslot'
  rcases List.mem_append.mp (List.mem_of_mem_filter hslot') with hmem | hmem
  · obtain ⟨slot, hslot, hevolves, -⟩ := exists_of_forall₂ hl.flip hmem
    exact Or.inl ⟨slot, hslot, hevolves⟩
  · rcases hfresh with ⟨rfl, -⟩ | ⟨slot, rfl, hserial, -⟩
    · exact absurd hmem List.not_mem_nil
    · exact Or.inr (List.mem_singleton.mp hmem ▸ hserial)

/-- If no serial number has been used, every manipulator was there before. -/
theorem exists_of_nextSerial_eq (h : Evolution m m') (hnext : m'.nextSerial = m.nextSerial)
    {slot' : Slot} (hslot' : slot' ∈ m'.manipulators) :
    ∃ slot ∈ m.manipulators, slot.Evolves slot' := by
  obtain ⟨l, fresh, keep, heq, hl, hfresh⟩ := h
  rcases hfresh with ⟨rfl, -⟩ | ⟨_, _, _, hnext'⟩
  · rw [heq, List.append_nil] at hslot'
    obtain ⟨slot, hslot, hevolves, -⟩ := exists_of_forall₂ hl.flip (List.mem_of_mem_filter hslot')
    exact ⟨slot, hslot, hevolves⟩
  · omega

/-- The order of the insertions is kept. -/
theorem sorted (h : Evolution m m') (hm : m.Sorted) : m'.Sorted := by
  have hexists := @h.exists_or_fresh
  obtain ⟨l, fresh, keep, heq, hl, hfresh⟩ := h
  have hserials : l.map (·.serial) = m.manipulators.map (·.serial) := by
    rw [← List.forall₂_eq_eq_eq, List.forall₂_map_left_iff, List.forall₂_map_right_iff]
    exact (hl.imp fun _ _ h => h.1.serial.symm).flip.imp fun _ _ h => h.symm
  have hl : Slot.Sorted l := by
    rw [Slot.Sorted, ← List.pairwise_map, hserials, List.pairwise_map]
    exact hm.1
  have hlt : ∀ slot ∈ l, slot.serial < m.nextSerial := by
    intro slot hslot
    have hmem := List.mem_map_of_mem (f := (·.serial)) hslot
    rw [hserials] at hmem
    obtain ⟨slot', hslot', hserial⟩ := List.mem_map.mp hmem
    exact hserial ▸ hm.2 slot' hslot'
  rw [Sorted, heq]
  rcases hfresh with ⟨rfl, hnext⟩ | ⟨slot, rfl, hserial, hnext⟩
  · rw [hnext, List.append_nil]
    exact ⟨hl.filter _, fun slot hslot => hlt slot (List.mem_of_mem_filter hslot)⟩
  · rw [hnext]
    refine ⟨List.Pairwise.filter _ (List.pairwise_append.mpr ⟨hl, List.pairwise_singleton _ _, ?_⟩),
      fun s hs => ?_⟩
    · intro s hs t ht
      rw [List.mem_singleton.mp ht, hserial]
      exact hlt s hs
    · rcases List.mem_append.mp (List.mem_of_mem_filter hs) with hs | hs
      · exact (hlt s hs).trans (Nat.lt_succ_self _)
      · rw [List.mem_singleton.mp hs, hserial]
        exact Nat.lt_succ_self _

end Evolution

end ManipulatorManager

namespace Connection

variable [Exprtk]

/-- The connection without the manipulators with serial numbers from the bound on, and with all
others valid. -/
def restrict (c : Connection) (bound : ℕ) : Connection :=
  { c with manager.manipulators := Slot.restrict bound c.manager.manipulators }

variable [SystemClock] [MachTimebase]

/-- What handling the front entry makes of the manipulators. -/
theorem evolution_handleFront {c : Connection} (hwf : c.WellFormed) (front : Entry)
    (rest : List Entry) (now : AbsoluteTime) :
    ∃ slots, (c.handleFront front rest now).manager = { c.manager with manipulators := slots } ∧
      List.Forall₂ (fun slot slot' => slot.Evolves slot' ∧
        ((c.handleFront front rest now).waits = true → slot'.basic.active = slot.basic.active))
      c.manager.manipulators slots := by
  have hmap {f : Basic → Basic}
      (hf : ∀ slot : Slot, slot.Evolves { slot with basic := f slot.basic })
      {h : Handled} (hmanager : h.manager = c.manager.map f) (hwaits : h.waits = false) :
      ∃ slots, h.manager = { c.manager with manipulators := slots } ∧
        List.Forall₂ (fun slot slot' => slot.Evolves slot' ∧
          (h.waits = true → slot'.basic.active = slot.basic.active))
        c.manager.manipulators slots := by
    refine ⟨_, hmanager, ?_⟩
    rw [List.forall₂_map_right_iff, List.forall₂_same]
    exact fun slot _ => ⟨hf slot, fun h => absurd (h.symm.trans hwaits) (by decide)⟩
  have hsame {h : Handled} (hmanager : h.manager = c.manager) :
      ∃ slots, h.manager = { c.manager with manipulators := slots } ∧
        List.Forall₂ (fun slot slot' => slot.Evolves slot' ∧
          (h.waits = true → slot'.basic.active = slot.basic.active)) c.manager.manipulators slots :=
    ⟨_, hmanager, List.forall₂_same.mpr fun slot _ => ⟨.refl slot, fun _ => rfl⟩⟩
  have hfront : ∃ slots, (c.manipulateFront front rest now).manager =
        { c.manager with manipulators := slots } ∧
      List.Forall₂ (fun slot slot' => slot.Evolves slot' ∧
        ((c.manipulateFront front rest now).waits = true → slot'.basic.active = slot.basic.active))
      c.manager.manipulators slots := by
    unfold manipulateFront
    split_ifs
    · exact ⟨_, rfl, List.forall₂_same.mpr fun slot _ => ⟨.refl slot, fun _ => rfl⟩⟩
    · exact ⟨_, rfl, Slot.evolves_manipulateAll rest now hwf front c.output⟩
  cases hevent : front.event with
  | deviceUngrabbed =>
      refine hmap (f := fun b => b.handleDeviceUngrabbedEvent front.deviceId)
        (fun slot => ⟨rfl, rfl, fun hinvalid => ⟨hinvalid, ?_⟩⟩) ?_ ?_
      · simp [Basic.handleDeviceUngrabbedEvent, Basic.mapObjects]
      · simp only [handleFront, hevent]
      · simp only [handleFront, hevent]
  | pointingDeviceEventFromEventTap =>
      refine hmap (f := fun b => b.handlePointingDeviceEventFromEventTap front)
        (fun slot => .of_sameHeld (Basic.sameHeld_unsetAloneIfNeeded _ _ _)) ?_ ?_
      · simp only [handleFront, hevent]
      · simp only [handleFront, hevent]
  | deviceKeysAndPointingButtonsAreReleased | none | deviceGrabbed _
  | frontmostApplicationChanged _ | inputSourceChanged _ | setVariable _
  | virtualHidDevicesStateChanged _ =>
      refine hsame ?_
      simp only [handleFront, hevent]
  | momentarySwitchEvent _ | pointingMotion _ | shellCommand _ | selectInputSource _
  | setNotificationMessage _ | mouseKey _ | stickyModifier _ _ | softwareFunction _
  | stopKeyboardRepeat | capsLockStateChanged _ | systemPreferencesPropertiesChanged _ =>
      simp only [handleFront, hevent]
      exact hfront

/-- Manipulation inserts no manipulator. -/
theorem nextSerial_manipulate {c : Connection} (hwf : c.WellFormed) (now : AbsoluteTime)
    (reorder : Bool) : (c.manipulate now reorder).manager.nextSerial = c.manager.nextSerial := by
  unfold manipulate
  cases c.input.events with
  | nil => rfl
  | cons front rest =>
      obtain ⟨slots, hmanager, -⟩ := evolution_handleFront hwf front rest now
      dsimp only
      split_ifs <;> simp [ManipulatorManager.removeInvalidManipulators, hmanager]

/-- **What a step makes of the manipulators.** -/
theorem evolution_step {c : Connection} (hwf : c.WellFormed) (i : Input) :
    ManipulatorManager.Evolution c.manager (c.step i).manager := by
  have hsame : ManipulatorManager.Evolution c.manager c.manager :=
    .of_forall₂ (List.forall₂_same.mpr fun slot _ => .refl slot)
  have hfire (serial : ℕ) {f : Basic → Output → Basic × Output}
      (hf : ∀ b output, Basic.SameHeld b (f b output).1) :
      ManipulatorManager.Evolution c.manager (c.fire serial f).manager := by
    refine .of_forall₂ ?_
    suffices h : ∀ (slots : List Slot) (output : Output),
        List.Forall₂ Slot.Evolves slots (Slot.fire serial f slots output).1 from h _ _
    intro slots
    induction slots with
    | nil => exact fun _ => .nil
    | cons slot slots ih =>
        intro output
        unfold Slot.fire
        split_ifs
        · exact .cons (.of_sameHeld (hf slot.basic output))
            (List.forall₂_same.mpr fun s _ => .refl s)
        · exact .cons (.refl slot) (ih output)
  cases i with
  | arrive e => exact hsame
  | manipulate now reorder =>
      simp only [step, manipulate]
      cases c.input.events with
      | nil =>
          exact .removeInvalidManipulators (List.forall₂_same.mpr fun slot _ => ⟨.refl slot, rfl⟩)
      | cons front rest =>
          obtain ⟨slots, hmanager, hslots⟩ := evolution_handleFront hwf front rest now
          dsimp only
          rw [hmanager]
          split_ifs with hwaits
          · exact .removeInvalidManipulators (hslots.imp fun _ _ h => ⟨h.1, h.2 hwaits⟩)
          · exact .of_forall₂ (hslots.imp fun _ _ h => h.1)
  | fireHeldDown serial id => exact hfire serial fun b output => b.sameHeld_fireHeldDown id output
  | fireDelayedAction serial id =>
      exact hfire serial fun b output => b.sameHeld_fireDelayedAction id output
  | invalidateManipulators =>
      refine .removeInvalidManipulators ?_
      rw [List.forall₂_map_right_iff, List.forall₂_same]
      exact fun slot _ => ⟨⟨rfl, rfl, fun _ => ⟨rfl, rfl⟩⟩, rfl⟩
  | pushBackManipulator d => exact .pushBackManipulator c.manager d
  | outside output => exact hsame

/-! ### A key_up after a reload -/

/-- **A key_up that is held** has the same consumer and posts the same entries without the newer
manipulators. -/
theorem manipulate_restrict {c : Connection} (hwf : c.WellFormed) (hsorted : c.manager.Sorted)
    (now : AbsoluteTime) (reorder : Bool) {front : Entry} {rest : List Entry}
    (hevents : c.input.events = front :: rest) (valid : front.validity = .valid)
    (up : front.eventType = .keyUp) {bound : ℕ}
    (hheld : ∃ slot ∈ c.manager.manipulators,
      slot.serial < bound ∧ 0 < slot.basic.holders front.fromEvent) :
    (c.restrict bound).manipulate now reorder = (c.manipulate now reorder).restrict bound ∧
      ∃ slot, Slot.captor rest now c.manager.manipulators front c.output = some slot ∧
        Slot.captor rest now (c.restrict bound).manager.manipulators front c.output =
          some slot.enable := by
  -- only momentary switches are held
  have hevent : ∃ e, front.event = .momentarySwitchEvent e := by
    obtain ⟨slot, hslot, -, hpos⟩ := hheld
    obtain ⟨id, hid, hfe⟩ := List.countP_pos_iff.mp hpos
    exact FromEventDefinition.exists_of_testEvent ((hwf slot hslot).matches_ id hid _ hfe)
  obtain ⟨hwaits, hrestrict, hcaptor⟩ := Slot.manipulateAll_restrict hwf hsorted.1 valid up hevent
    hheld rest now c.output
  refine ⟨?_, hcaptor⟩
  have hfront (c : Connection) : c.handleFront front rest now =
      let p := Slot.manipulateAll rest now c.manager.manipulators front c.output
      ⟨p.waits, { c.manager with manipulators := p.slots }, p.front, p.output⟩ := by
    have hfree : c.manager.alreadyManipulated front = false := by
      rw [Bool.eq_false_iff]
      intro h
      exact absurd (((c.alreadyManipulated_iff front).mp h).1.symm.trans up) (by decide)
    obtain ⟨e, he⟩ := hevent
    simp only [handleFront, he, manipulateFront, hfree, Bool.and_false, Bool.false_eq_true,
      if_false]
  have hevents' : (c.restrict bound).input.events = front :: rest := hevents
  unfold manipulate
  rw [hevents, hevents']
  dsimp only
  rw [hfront, hfront]
  dsimp only
  have hpass : Slot.manipulateAll rest now (c.restrict bound).manager.manipulators front
      (c.restrict bound).output = _ := hrestrict
  have hnot :
      ¬ (Slot.manipulateAll rest now c.manager.manipulators front c.output).waits = true := by
    rw [hwaits]
    decide
  rw [hpass]
  dsimp only
  rw [if_neg hnot, if_neg hnot]
  rfl

/-! ### Runs -/

/-- The manipulators stay in the order of their insertion. -/
theorem sorted_run (definitions : List BasicDefinition) (output : Output) (is : List Input) :
    (Machine.run step (initial definitions output) is).manager.Sorted := by
  have hinit : (initial definitions output).manager.Sorted := by
    unfold initial
    have hpush : ∀ m : ManipulatorManager, m.Sorted →
        (definitions.foldl ManipulatorManager.pushBackManipulator m).Sorted := by
      induction definitions with
      | nil => exact fun m hm => hm
      | cons d ds ih =>
          exact fun m hm => ih _ ((ManipulatorManager.Evolution.pushBackManipulator m d).sorted hm)
    exact hpush {} ⟨.nil, by simp⟩
  induction is using List.reverseRecOn with
  | nil => exact hinit
  | append_singleton is i ih =>
      rw [Machine.run_concat]
      exact (evolution_step (wellFormed_run definitions output is) i).sorted ih

/-- **Hot reload safety.**  In every run, with reloads between any two steps:

* no step removes an active manipulator;
* an invalid manipulator stays invalid and creates no press;
* a key_up whose from event a manipulator holds has the same consumer and the same effect without
  all manipulators inserted since an earlier state that has this manipulator (in particular since
  the key was captured), and with all validity flags valid. -/
theorem run_reload (definitions : List BasicDefinition) (output : Output) (is : List Input) :
    (∀ before i after, is = before ++ i :: after →
      let c := Machine.run step (initial definitions output) before
      let c' := Machine.run step (initial definitions output) (before ++ [i])
      (∀ slot ∈ c.manager.manipulators, slot.basic.active = true →
        ∃ slot' ∈ c'.manager.manipulators,
          slot'.serial = slot.serial ∧ slot'.basic.definition = slot.basic.definition) ∧
      ∀ slot ∈ c.manager.manipulators, slot.basic.validity = .invalid →
        ∀ slot' ∈ c'.manager.manipulators, slot'.serial = slot.serial →
          slot'.basic.validity = .invalid ∧
            slot'.basic.objects.length = slot.basic.objects.length) ∧
    ∀ before middle now reorder after,
      is = before ++ middle ++ .manipulate now reorder :: after →
      let c₀ := Machine.run step (initial definitions output) before
      let c := Machine.run step (initial definitions output) (before ++ middle)
      ∀ front rest, c.input.events = front :: rest → front.validity = .valid →
        front.eventType = .keyUp →
        ∀ slot₀ ∈ c₀.manager.manipulators, ∀ slot ∈ c.manager.manipulators,
          slot.serial = slot₀.serial → 0 < slot.basic.holders front.fromEvent →
          (c.restrict c₀.manager.nextSerial).step (.manipulate now reorder) =
            (c.step (.manipulate now reorder)).restrict c₀.manager.nextSerial ∧
          ∃ consumer, Slot.captor rest now c.manager.manipulators front c.output = some consumer ∧
            Slot.captor rest now (c.restrict c₀.manager.nextSerial).manager.manipulators front
              c.output = some consumer.enable := by
  constructor
  · rintro before i after rfl
    have hevolution := evolution_step (wellFormed_run definitions output before) i
    have hsorted := sorted_run definitions output before
    dsimp only
    rw [Machine.run_concat]
    refine ⟨fun slot hslot hactive => ?_, fun slot hslot hinvalid slot' hslot' hserial => ?_⟩
    · obtain ⟨slot', hslot', hevolves⟩ := hevolution.exists_of_active hslot hactive
      exact ⟨slot', hslot', hevolves.serial, hevolves.definition⟩
    · rcases hevolution.exists_or_fresh hslot' with ⟨slot₁, hslot₁, hevolves⟩ | hfresh
      · have hsame : slot₁ = slot :=
          List.inj_on_of_nodup_map (f := Slot.serial)
            ((List.pairwise_map.mpr hsorted.1).imp fun h => h.ne) hslot₁ hslot
            (hevolves.serial.symm.trans hserial)
        exact (hsame ▸ hevolves).invalid hinvalid
      · exact absurd (hserial.symm.trans hfresh) (hsorted.2 slot hslot).ne
  · rintro before middle now reorder after rfl
    dsimp only
    intro front rest hevents valid up slot₀ hslot₀ slot hslot hserial hpos
    have hbound : slot.serial <
        (Machine.run step (initial definitions output) before).manager.nextSerial :=
      hserial ▸ (sorted_run definitions output before).2 slot₀ hslot₀
    exact manipulate_restrict (wellFormed_run definitions output _)
      (sorted_run definitions output _) now reorder hevents valid up ⟨slot, hslot, hbound, hpos⟩

end Connection

end Karabiner
