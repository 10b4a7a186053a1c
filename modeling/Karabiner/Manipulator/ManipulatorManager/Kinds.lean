import Karabiner.Manipulator.ManipulatorManager.Batching
import Karabiner.Manipulator.ManipulatorManagersConnector.Potential
import Karabiner.Manipulator.MouseBasic

/-!
# A manager with two kinds of manipulators

The manager of the simple modifications has `mouse_basic` manipulators beside its `basic` ones.  The
`basic` ones are plain: they map from a single event, set no timer, and their conditions do not look
at the variables.  Evaluating conditions changes nothing else than the variables (`Refreshed`), so
whether a manipulator takes an entry does not depend on the ones before it.

* `manipulateAll_basics` — with `basic` manipulators only, it is the loop of `Slot.manipulateAll`.
* `manipulateAll_of_plain` — **the first manipulator that takes an entry handles it**, and the
  others let it pass.
* `KindsConnection.loaded_run` — **after any run**, the valid manipulators are those of the last
  update, in its order.
-/

namespace Karabiner

/-! ### Manipulators -/

/-- A manipulator of `manipulators_`. -/
inductive Manipulator
  | basic (b : Basic)
  | mouseBasic (m : MouseBasic)

/-- What a manipulator is constructed from. -/
inductive ManipulatorDefinition
  | basic (d : BasicDefinition)
  | mouseBasic (d : MouseBasicDefinition) (conditions : List Condition)

/-- A new manipulator. -/
def ManipulatorDefinition.make : ManipulatorDefinition → Manipulator
  | .basic d => .basic { definition := d }
  | .mouseBasic d conditions => .mouseBasic { definition := d, conditions := conditions }

namespace Manipulator

/-- What the manipulator was constructed from. -/
def definition : Manipulator → ManipulatorDefinition
  | .basic b => .basic b.definition
  | .mouseBasic m => .mouseBasic m.definition m.conditions

/-- `get_validity`. -/
def validity : Manipulator → Validity
  | .basic b => b.validity
  | .mouseBasic m => m.validity

/-- `set_validity(validity::invalid)`. -/
def invalidate : Manipulator → Manipulator
  | .basic b => .basic { b with validity := .invalid }
  | .mouseBasic m => .mouseBasic { m with validity := .invalid }

/-- `active`. -/
def active : Manipulator → Bool
  | .basic b => b.active
  | .mouseBasic _ => false

/-- `already_manipulated`. -/
def alreadyManipulated (front : Entry) : Manipulator → Bool
  | .basic b => b.alreadyManipulated front
  | .mouseBasic _ => false

/-- `handle_device_ungrabbed_event`. -/
def handleDeviceUngrabbedEvent (deviceId : DeviceId) : Manipulator → Manipulator
  | .basic b => .basic (b.handleDeviceUngrabbedEvent deviceId)
  | .mouseBasic m => .mouseBasic m

/-- `handle_pointing_device_event_from_event_tap`. -/
def handlePointingDeviceEventFromEventTap (front : Entry) : Manipulator → Manipulator
  | .basic b => .basic (b.handlePointingDeviceEventFromEventTap front)
  | .mouseBasic m => .mouseBasic m

/-- The same manipulator in a later state. -/
structure Same (m m' : Manipulator) : Prop where
  definition : m'.definition = m.definition
  validity : m'.validity = m.validity

theorem Same.refl (m : Manipulator) : Same m m := ⟨rfl, rfl⟩

/-- An invalid manipulator has been constructed from the same. -/
theorem definition_invalidate (m : Manipulator) : m.invalidate.definition = m.definition := by
  cases m <;> rfl

/-- A manipulator of either kind is invalid afterwards. -/
theorem validity_invalidate (m : Manipulator) : m.invalidate.validity = .invalid := by
  cases m <;> rfl

/-- A new manipulator has its definition. -/
theorem definition_make (d : ManipulatorDefinition) : d.make.definition = d := by cases d <;> rfl

theorem validity_make (d : ManipulatorDefinition) : d.make.validity = .valid := by cases d <;> rfl

/-- An ungrabbed device takes away presses only. -/
theorem same_handleDeviceUngrabbedEvent (m : Manipulator) (deviceId : DeviceId) :
    Same m (m.handleDeviceUngrabbedEvent deviceId) := by
  cases m <;> exact ⟨rfl, rfl⟩

/-- An event of the event tap unsets `alone_` only. -/
theorem same_handlePointingDeviceEventFromEventTap (m : Manipulator) (front : Entry) :
    Same m (m.handlePointingDeviceEventFromEventTap front) := by
  cases m with
  | basic b =>
      have hheld := b.sameHeld_unsetAloneIfNeeded front.originalEvent front.eventType
      exact ⟨congrArg ManipulatorDefinition.basic hheld.definition, hheld.validity⟩
  | mouseBasic m => exact .refl _

/-! ### The loop -/

variable [Exprtk] [SystemClock] [MachTimebase]

/-- What `manipulate` returns and leaves behind. -/
structure Manipulated where
  result : ManipulateResult
  manipulator : Manipulator
  front : Entry
  output : Output

/-- `manipulate`. -/
def manipulate (m : Manipulator) (front : Entry) (rest : List Entry) (output : Output)
    (now : AbsoluteTime) : Manipulated :=
  match m with
  | .basic b =>
    let r := b.manipulate front rest output now
    ⟨r.result, .basic r.basic, r.front, r.output⟩
  | .mouseBasic m =>
    let (result, front, output) := m.manipulate front output
    ⟨result, .mouseBasic m, front, output⟩

/-- What the loop leaves behind. -/
structure Pass where
  waits : Bool
  manipulators : List Manipulator
  front : Entry
  output : Output

/-- The loop of `manipulator_manager::manipulate`. -/
def manipulateAll (rest : List Entry) (now : AbsoluteTime) :
    List Manipulator → Entry → Output → Pass
  | [], front, output => ⟨false, [], front, output⟩
  | m :: ms, front, output =>
    let r := m.manipulate front rest output now
    if r.result = .needsWaitUntilTimeStamp then ⟨true, r.manipulator :: ms, r.front, r.output⟩
    else
      let p := manipulateAll rest now ms r.front r.output
      { p with manipulators := r.manipulator :: p.manipulators }

/-- With `basic` manipulators only, it is the loop over the slots. -/
theorem manipulateAll_basics (rest : List Entry) (now : AbsoluteTime) (slots : List Slot)
    (front : Entry) (output : Output) :
    manipulateAll rest now (slots.map fun slot => .basic slot.basic) front output =
      let p := Slot.manipulateAll rest now slots front output
      ⟨p.waits, p.slots.map fun slot => .basic slot.basic, p.front, p.output⟩ := by
  induction slots generalizing front output with
  | nil => rfl
  | cons slot slots ih =>
      rw [List.map_cons, manipulateAll, Slot.manipulateAll]
      by_cases hwaits :
          (slot.basic.manipulate front rest output now).result = .needsWaitUntilTimeStamp
      · simp only [manipulate, hwaits, if_true, List.map_cons]
      · simp only [manipulate, hwaits, if_false, List.map_cons, ih]

end Manipulator

/-! ### What evaluating conditions leaves behind -/

namespace Output

variable [Exprtk]

/-- The same output queue, apart from the variables. -/
def Refreshed (o o' : Output) : Prop :=
  ∃ values w, o' =
    { queue := { o.queue with
        manipulatorEnvironment :=
          { o.queue.manipulatorEnvironment with environmentVariables := values } }
      world := w }

theorem Refreshed.refl (o : Output) : Refreshed o o :=
  ⟨o.queue.manipulatorEnvironment.environmentVariables, o.world, rfl⟩

theorem Refreshed.trans {o₁ o₂ o₃ : Output} (h₁ : Refreshed o₁ o₂) (h₂ : Refreshed o₂ o₃) :
    Refreshed o₁ o₃ := by
  obtain ⟨_, _, rfl⟩ := h₁
  obtain ⟨values, w, rfl⟩ := h₂
  exact ⟨values, w, rfl⟩

variable [SystemClock]

/-- Evaluating conditions sets variables of the environment, and nothing else. -/
theorem refreshed_isFulfilled (conditions : List Condition) (front : Entry) (o : Output) :
    Refreshed o
      { queue := { o.queue with
          manipulatorEnvironment :=
            (isFulfilled conditions front o.queue.manipulatorEnvironment o.world).2.1 }
        world := (isFulfilled conditions front o.queue.manipulatorEnvironment o.world).2.2 } :=
  ⟨_, _, rfl⟩

end Output

section

variable [Exprtk]

/-- The condition does not look at the variables. -/
def Condition.Steady (c : Condition) : Prop :=
  ∀ (entry : Entry) (env : ManipulatorEnvironment) (w : World)
    (values : AList fun _ : String => VariableValue) (w' : World),
    c.isFulfilled entry { env with environmentVariables := values } w' =
      c.isFulfilled entry env w

theorem Condition.Steady.congr {c : Condition} (h : c.Steady) (entry : Entry) {o o' : Output}
    (hrefreshed : o.Refreshed o') :
    c.isFulfilled entry o'.queue.manipulatorEnvironment o'.world =
      c.isFulfilled entry o.queue.manipulatorEnvironment o.world := by
  obtain ⟨values, w, rfl⟩ := hrefreshed
  exact h entry o.queue.manipulatorEnvironment o.world values w

/-- All conditions are fulfilled. -/
def allFulfilled (conditions : List Condition) (front : Entry) (o : Output) : Bool :=
  conditions.all fun c => c.isFulfilled front o.queue.manipulatorEnvironment o.world

theorem allFulfilled_congr {conditions : List Condition} (h : ∀ c ∈ conditions, c.Steady)
    (front : Entry) {o o' : Output} (hrefreshed : o.Refreshed o') :
    allFulfilled conditions front o' = allFulfilled conditions front o := by
  rw [allFulfilled, allFulfilled, Bool.eq_iff_iff, List.all_eq_true, List.all_eq_true]
  exact forall₂_congr fun c hc => by rw [(h c hc).congr front hrefreshed]

/-- The conditions are evaluated after the variables have been set. -/
theorem isFulfilled_eq_allFulfilled [SystemClock] {conditions : List Condition}
    (h : ∀ c ∈ conditions, c.Steady) (front : Entry) (o : Output) :
    (isFulfilled conditions front o.queue.manipulatorEnvironment o.world).1 =
      allFulfilled conditions front o :=
  allFulfilled_congr h front (Output.refreshed_isFulfilled conditions front o)

end

/-! ### What a manipulator takes -/

/-- A `basic` that maps from a single event and sets no timer, with steady conditions. -/
structure BasicDefinition.Plain [Exprtk] (d : BasicDefinition) : Prop where
  single : ∃ e, d.from_.eventDefinitions = [e]
  toIfHeldDown : d.toIfHeldDown = none
  toDelayedAction : d.toDelayedAction = none
  steady : ∀ c ∈ d.conditions, c.Steady

variable [Exprtk]

namespace ManipulatorDefinition

/-- The conditions. -/
def conditions : ManipulatorDefinition → List Condition
  | .basic d => d.conditions
  | .mouseBasic _ conditions => conditions

/-- The same without its conditions. -/
def unconditional : ManipulatorDefinition → ManipulatorDefinition
  | .basic d => .basic { d with conditions := [] }
  | .mouseBasic d _ => .mouseBasic d []

/-- A plain `basic`, or a `mouse_basic` with steady conditions. -/
def Plain : ManipulatorDefinition → Prop
  | .basic d => d.Plain
  | .mouseBasic _ conditions => ∀ c ∈ conditions, c.Steady

/-- All conditions of a plain manipulator are steady. -/
theorem Plain.steady {d : ManipulatorDefinition} (h : d.Plain) : ∀ c ∈ d.conditions, c.Steady :=
  match d with
  | .basic _ => BasicDefinition.Plain.steady h
  | .mouseBasic _ _ => h

/-- The event is one that the manipulator maps, with these modifiers. -/
def targets (front : Entry) (manager : ModifierFlagManager) : ManipulatorDefinition → Bool
  | .basic d =>
    front.eventType = .keyDown && d.from_.testEvent front.event &&
      (d.from_.fromModifiersDefinition.testModifiers manager).isSome
  | .mouseBasic d _ => d.isOn && front.event.getPointingMotion.isSome

/-- The manipulator takes the entry. -/
def takes (d : ManipulatorDefinition) (front : Entry) (o : Output) : Bool :=
  d.targets front o.queue.modifierFlagManager && allFulfilled d.conditions front o

theorem takes_congr {d : ManipulatorDefinition} (h : d.Plain) (front : Entry) {o o' : Output}
    (hrefreshed : o.Refreshed o') : d.takes front o' = d.takes front o := by
  have hall := allFulfilled_congr h.steady front hrefreshed
  obtain ⟨values, w, rfl⟩ := hrefreshed
  exact congrArg (d.targets front o.queue.modifierFlagManager && ·) hall

end ManipulatorDefinition

variable [SystemClock] [MachTimebase]

/-- What a press posts: the output queue after `capture`. -/
def BasicDefinition.press (d : BasicDefinition) (front : Entry) (fromEvents : Finset FromEvent)
    (fromMandatoryModifiers : List ModifierFlag) (o : Output) : Output :=
  (Basic.capture { definition := d } front fromEvents fromMandatoryModifiers o).output

/-- What a capture posts depends on the definition alone, not on the presses of before. -/
theorem Basic.capture_eq_press (b : Basic) (front : Entry) (fromEvents : Finset FromEvent)
    (fromMandatoryModifiers : List ModifierFlag) (o : Output) :
    (b.capture front fromEvents fromMandatoryModifiers o).output =
      b.definition.press front fromEvents fromMandatoryModifiers o := by
  simp [BasicDefinition.press, Basic.capture, Basic.finish, Basic.send, Basic.pushBack]

/-- `manipulate` keeps the validity. -/
theorem Basic.validity_manipulate (b : Basic) (front : Entry) (rest : List Entry) (o : Output)
    (now : AbsoluteTime) : (b.manipulate front rest o now).basic.validity = b.validity := by
  have hobserve := (b.sameHeld_observe front o).validity
  have hcases := b.manipulates_manipulate front rest o now
  generalize b.observe front o = observed at hobserve hcases
  obtain ⟨b₁, o₁⟩ := observed
  rw [← hobserve]
  dsimp only at hcases ⊢
  generalize b.manipulate front rest o now = r at hcases
  cases hcases with
  | passed => rfl
  | waits => rfl
  | captured => exact (b₁.adds_capture _ _ _ _).validity
  | @released id =>
      have hfinish := sameHeld_finish (b₁.eraseFromEvent id front.fromEvent) front id
        b₁.definition.fromEvents_postKeyUp o₁
      exact hfinish.validity.trans (b₁.eraseFromEvent_keeps id front.fromEvent).2.1

/-- **`manipulate` neither replaces nor invalidates** a manipulator. -/
theorem Manipulator.same_manipulate (m : Manipulator) (front : Entry) (rest : List Entry)
    (o : Output) (now : AbsoluteTime) : Same m (m.manipulate front rest o now).manipulator := by
  cases m with
  | basic b =>
      exact ⟨congrArg ManipulatorDefinition.basic (b.definition_manipulate front rest o now),
        b.validity_manipulate front rest o now⟩
  | mouseBasic m => exact .refl _

theorem Manipulator.same_manipulateAll (rest : List Entry) (now : AbsoluteTime)
    (ms : List Manipulator) (front : Entry) (o : Output) :
    List.Forall₂ Same ms (manipulateAll rest now ms front o).manipulators := by
  induction ms generalizing front o with
  | nil => exact .nil
  | cons m ms ih =>
      have hsame := m.same_manipulate front rest o now
      unfold manipulateAll
      dsimp only
      split_ifs
      · exact .cons hsame (List.forall₂_same.mpr fun m' _ => .refl m')
      · exact .cons hsame (ih _ _)

/-- What a manipulator that takes an entry makes of the output queue. -/
def ManipulatorDefinition.Handles (front : Entry) (o o' : Output) : ManipulatorDefinition → Prop
  | .basic d =>
    ∃ fromEvents fromMandatoryModifiers,
      d.from_.fromModifiersDefinition.testModifiers o.queue.modifierFlagManager =
          some fromMandatoryModifiers ∧
        (∀ fe ∈ fromEvents, d.from_.testEvent fe.event = true) ∧ front.fromEvent ∈ fromEvents ∧
        o' = d.press front fromEvents fromMandatoryModifiers o
  | .mouseBasic d _ =>
    ∃ motion, front.event = .pointingMotion motion ∧
      o' = o.emplaceBackEntry (MouseBasic.manipulatedEntry { definition := d } front motion)

/-- What becomes of an entry when these manipulators may take it. -/
def Treats (taker : Option ManipulatorDefinition) (front : Entry) (o : Output) (front' : Entry)
    (o' : Output) : Prop :=
  match taker with
  | none => front' = front ∧ o.Refreshed o'
  | some d =>
    front' = { front with validity := .invalid } ∧
      ∃ o₁, o.Refreshed o₁ ∧ d.Handles front o₁ o'

/-- What becomes of an entry does not depend on variables that have been set. -/
theorem Treats.of_refreshed {taker : Option ManipulatorDefinition} {front front' : Entry}
    {o o₁ o' : Output} (hrefreshed : o.Refreshed o₁) (h : Treats taker front o₁ front' o') :
    Treats taker front o front' o' := by
  cases taker with
  | none => exact ⟨h.1, hrefreshed.trans h.2⟩
  | some d =>
      obtain ⟨hfront, o₂, h₂, hhandles⟩ := h
      exact ⟨hfront, o₂, hrefreshed.trans h₂, hhandles⟩

/-- What a manipulator makes of an entry does not depend on its conditions. -/
theorem ManipulatorDefinition.handles_unconditional (d : ManipulatorDefinition) (front : Entry)
    (o o' : Output) : d.unconditional.Handles front o o' ↔ d.Handles front o o' := by
  cases d <;> exact Iff.rfl

theorem Treats.of_map_unconditional {taker taker' : Option ManipulatorDefinition}
    (h : taker.map ManipulatorDefinition.unconditional =
      taker'.map ManipulatorDefinition.unconditional) {front front' : Entry} {o o' : Output}
    (htreats : Treats taker front o front' o') : Treats taker' front o front' o' := by
  cases taker with
  | none =>
      cases taker' with
      | none => exact htreats
      | some d' => cases h
  | some d =>
      cases taker' with
      | none => cases h
      | some d' =>
          obtain ⟨hfront, o₁, hrefreshed, hhandles⟩ := htreats
          have hd : d.unconditional = d'.unconditional := Option.some.inj h
          rw [← d.handles_unconditional, hd, d'.handles_unconditional] at hhandles
          exact ⟨hfront, o₁, hrefreshed, hhandles⟩

namespace Basic

/-- A plain manipulator only takes notice of an entry for `to_if_alone`. -/
theorem observe_of_plain {b : Basic} (h : b.definition.Plain) (front : Entry) (o : Output) :
    b.observe front o = (b.unsetAloneIfNeeded front.event front.eventType, o) := by
  have hdefinition := (b.sameHeld_unsetAloneIfNeeded front.event front.eventType).definition
  have hcancel : (b.unsetAloneIfNeeded front.event front.eventType).cancelHeldDown front =
      b.unsetAloneIfNeeded front.event front.eventType := by
    rw [cancelHeldDown, hdefinition, h.toIfHeldDown]
    rfl
  rw [observe, hcancel, cancelDelayedAction, hdefinition, h.toDelayedAction]

/-- What a plain manipulator does with a valid key_down that it maps, if the modifiers are there. -/
theorem treats_manipulateKeyDown {b : Basic} (h : b.definition.Plain) {front : Entry}
    (valid : front.validity = .valid) (down : front.eventType = .keyDown)
    (target : b.definition.from_.testEvent front.event = true) (rest : List Entry) (o : Output)
    (now : AbsoluteTime) :
    (b.manipulateKeyDown front rest o now).result ≠ .needsWaitUntilTimeStamp ∧
      Treats
        (if b.validity = .valid ∧ (ManipulatorDefinition.basic b.definition).takes front o = true
          then some (.basic b.definition) else none)
        front o (b.manipulateKeyDown front rest o now).front
        (b.manipulateKeyDown front rest o now).output := by
  have htakes : (ManipulatorDefinition.basic b.definition).takes front o =
      ((b.definition.from_.fromModifiersDefinition.testModifiers
        o.queue.modifierFlagManager).isSome && allFulfilled b.definition.conditions front o) := by
    simp [ManipulatorDefinition.takes, ManipulatorDefinition.targets,
      ManipulatorDefinition.conditions, down, target]
  have hrefreshed := Output.refreshed_isFulfilled b.definition.conditions front o
  rw [htakes]
  unfold manipulateKeyDown
  cases hvalidity : b.validity with
  | invalid => exact ⟨by simp, rfl, .refl o⟩
  | valid =>
      rw [if_neg (by decide)]
      cases hmodifiers : b.definition.from_.fromModifiersDefinition.testModifiers
        o.queue.modifierFlagManager with
      | none => exact ⟨by simp, rfl, .refl o⟩
      | some fromMandatoryModifiers =>
          dsimp only
          rw [isFulfilled_eq_allFulfilled h.steady]
          cases hfulfilled : allFulfilled b.definition.conditions front o with
          | false => exact ⟨by simp, rfl, hrefreshed⟩
          | true =>
              obtain ⟨fromEvents, hdetect, hcapture⟩ := manipulateDetected_single h.single valid
                down target rest fromMandatoryModifiers
                { queue := { o.queue with
                    manipulatorEnvironment := (isFulfilled b.definition.conditions front
                      o.queue.manipulatorEnvironment o.world).2.1 }
                  world := (isFulfilled b.definition.conditions front
                    o.queue.manipulatorEnvironment o.world).2.2 } now
              rw [if_neg (by decide), hcapture]
              refine ⟨by simp [capture, finish], rfl, _, hrefreshed, fromEvents,
                fromMandatoryModifiers, hmodifiers, fun fe hfe => ?_, ?_,
                capture_eq_press _ _ _ _ _⟩
              · obtain ⟨e, ⟨_, _, _, _, htest, _⟩, rfl⟩ := (mem_detect_iff hdetect fe).mp hfe
                exact htest
              · exact (mem_detect_iff hdetect front.fromEvent).mpr
                  ⟨front, collects_front valid down target rest, rfl⟩

/-- **What a plain `basic` does with an entry** that is no key_up: it takes it or lets it pass. -/
theorem treats_manipulate {b : Basic} (h : b.definition.Plain) {front : Entry}
    (valid : front.validity = .valid) (hup : front.eventType ≠ .keyUp) (rest : List Entry)
    (o : Output) (now : AbsoluteTime) :
    (b.manipulate front rest o now).result ≠ .needsWaitUntilTimeStamp ∧
      Treats
        (if b.validity = .valid ∧ (ManipulatorDefinition.basic b.definition).takes front o = true
          then some (.basic b.definition) else none)
        front o (b.manipulate front rest o now).front (b.manipulate front rest o now).output := by
  have hobserve := b.sameHeld_unsetAloneIfNeeded front.event front.eventType
  unfold manipulate
  rw [observe_of_plain h]
  generalize b.unsetAloneIfNeeded front.event front.eventType = b₁ at hobserve
  dsimp only
  rw [← hobserve.definition] at h ⊢
  rw [← hobserve.validity]
  cases htarget : b₁.definition.from_.testEvent front.event with
  | false =>
      rw [if_pos (by simp), if_neg (by simp [ManipulatorDefinition.takes,
        ManipulatorDefinition.targets, htarget])]
      exact ⟨by simp, rfl, .refl o⟩
  | true =>
      rw [if_neg (by simp [valid])]
      cases htype : front.eventType with
      | keyDown => exact treats_manipulateKeyDown h valid htype htarget rest o now
      | keyUp => exact absurd htype hup
      | single =>
          rw [if_neg (by simp [ManipulatorDefinition.takes, ManipulatorDefinition.targets, htype])]
          exact ⟨by simp, rfl, .refl o⟩

end Basic

/-- A motion that a `mouse_basic` may take. -/
theorem MouseBasic.treats_manipulate (m : MouseBasic) (h : ∀ c ∈ m.conditions, c.Steady)
    {front : Entry} (valid : front.validity = .valid) (o : Output) :
    (m.manipulate front o).1 ≠ .needsWaitUntilTimeStamp ∧
      Treats
        (if m.validity = .valid ∧
            (ManipulatorDefinition.mouseBasic m.definition m.conditions).takes front o = true
          then some (.mouseBasic m.definition m.conditions) else none)
        front o (m.manipulate front o).2.1 (m.manipulate front o).2.2 := by
  have hrefreshed := Output.refreshed_isFulfilled m.conditions front o
  have htakes : (ManipulatorDefinition.mouseBasic m.definition m.conditions).takes front o =
      (m.definition.isOn && front.event.getPointingMotion.isSome &&
        allFulfilled m.conditions front o) := rfl
  rw [htakes]
  unfold manipulate
  rw [if_neg (by simp [valid])]
  cases hvalidity : m.validity with
  | invalid => exact ⟨by simp, rfl, .refl o⟩
  | valid =>
      rw [if_neg (by decide)]
      dsimp only
      rw [isFulfilled_eq_allFulfilled h]
      cases hfulfilled : allFulfilled m.conditions front o with
      | false =>
          rw [if_pos (by simp), if_neg (by simp)]
          exact ⟨by simp, rfl, hrefreshed⟩
      | true =>
          rw [if_neg (by simp)]
          cases hevent : front.event with
          | pointingMotion motion =>
              dsimp only
              cases hon : m.definition.isOn with
              | false => exact ⟨by simp, rfl, hrefreshed⟩
              | true => exact ⟨by simp, by simp [← hevent], _, hrefreshed, motion, hevent, rfl⟩
          | _ =>
              rw [if_neg (by simp [Event.getPointingMotion])]
              exact ⟨by simp, rfl, hrefreshed⟩

namespace Manipulator

/-- The definition of the manipulator, if it takes the entry. -/
def taker (front : Entry) (o : Output) (m : Manipulator) : Option ManipulatorDefinition :=
  if m.validity = .valid ∧ m.definition.takes front o = true then some m.definition else none

omit [SystemClock] [MachTimebase] in
theorem taker_congr {m : Manipulator} (h : m.definition.Plain) (front : Entry) {o o' : Output}
    (hrefreshed : o.Refreshed o') : m.taker front o' = m.taker front o := by
  rw [taker, taker, m.definition.takes_congr h front hrefreshed]

omit [SystemClock] [MachTimebase] in
theorem findSome?_taker_congr {ms : List Manipulator} (h : ∀ m ∈ ms, m.definition.Plain)
    (front : Entry) {o o' : Output} (hrefreshed : o.Refreshed o') :
    ms.findSome? (taker front o') = ms.findSome? (taker front o) := by
  induction ms with
  | nil => rfl
  | cons m ms ih =>
      rw [List.findSome?_cons, List.findSome?_cons, ih fun m' hm' =>
        h m' (List.mem_cons_of_mem m hm'), taker_congr (h m List.mem_cons_self) front hrefreshed]

/-- **What a plain manipulator of either kind does** with an entry that is no key_up. -/
theorem treats_manipulate {m : Manipulator} (h : m.definition.Plain) {front : Entry}
    (valid : front.validity = .valid) (hup : front.eventType ≠ .keyUp) (rest : List Entry)
    (o : Output) (now : AbsoluteTime) :
    (m.manipulate front rest o now).result ≠ .needsWaitUntilTimeStamp ∧
      Treats (m.taker front o) front o (m.manipulate front rest o now).front
        (m.manipulate front rest o now).output := by
  cases m with
  | basic b => exact Basic.treats_manipulate h valid hup rest o now
  | mouseBasic m => exact MouseBasic.treats_manipulate m h valid o

/-- A plain manipulator lets an entry pass that has been consumed. -/
theorem manipulate_of_invalid {m : Manipulator} (h : m.definition.Plain) {front : Entry}
    (hfront : front.validity = .invalid) (rest : List Entry) (o : Output) (now : AbsoluteTime) :
    (m.manipulate front rest o now).result = .passed ∧
      (m.manipulate front rest o now).front = front ∧
      (m.manipulate front rest o now).output = o := by
  cases m with
  | basic b =>
      dsimp only [manipulate]
      rw [Basic.manipulate_of_invalid _ hfront, Basic.observe_of_plain h]
      exact ⟨rfl, rfl, rfl⟩
  | mouseBasic m =>
      dsimp only [manipulate]
      rw [MouseBasic.manipulate, if_pos hfront]
      exact ⟨rfl, rfl, rfl⟩

/-- Once an entry has been consumed, the rest of the loop lets it pass. -/
theorem manipulateAll_of_invalid (rest : List Entry) (now : AbsoluteTime) {ms : List Manipulator}
    (h : ∀ m ∈ ms, m.definition.Plain) {front : Entry} (hfront : front.validity = .invalid)
    (o : Output) :
    (manipulateAll rest now ms front o).waits = false ∧
      (manipulateAll rest now ms front o).front = front ∧
      (manipulateAll rest now ms front o).output = o := by
  induction ms with
  | nil => exact ⟨rfl, rfl, rfl⟩
  | cons m ms ih =>
      obtain ⟨hresult, hsame, houtput⟩ :=
        manipulate_of_invalid (h m List.mem_cons_self) hfront rest o now
      unfold manipulateAll
      dsimp only
      rw [if_neg (by simp [hresult]), hsame, houtput]
      exact ih fun m' hm' => h m' (List.mem_cons_of_mem m hm')

/-- **The first manipulator that takes an entry handles it**, with the output queue as it was, and
the others let it pass. -/
theorem manipulateAll_of_plain (rest : List Entry) (now : AbsoluteTime) {ms : List Manipulator}
    (h : ∀ m ∈ ms, m.definition.Plain) {front : Entry} (valid : front.validity = .valid)
    (hup : front.eventType ≠ .keyUp) (o : Output) :
    (manipulateAll rest now ms front o).waits = false ∧
      Treats (ms.findSome? (taker front o)) front o (manipulateAll rest now ms front o).front
        (manipulateAll rest now ms front o).output := by
  induction ms generalizing o with
  | nil => exact ⟨rfl, rfl, .refl o⟩
  | cons m ms ih =>
      have hplain : ∀ m' ∈ ms, m'.definition.Plain := fun m' hm' =>
        h m' (List.mem_cons_of_mem m hm')
      obtain ⟨hresult, htreats⟩ := treats_manipulate (h m List.mem_cons_self) valid hup rest o now
      unfold manipulateAll
      dsimp only
      rw [if_neg hresult, List.findSome?_cons]
      cases htaker : m.taker front o with
      | none =>
          rw [htaker] at htreats
          obtain ⟨hfront, hrefreshed⟩ := htreats
          obtain ⟨hwaits, hrest⟩ := ih hplain (m.manipulate front rest o now).output
          rw [findSome?_taker_congr hplain front hrefreshed] at hrest
          rw [hfront]
          exact ⟨hwaits, hrest.of_refreshed hrefreshed⟩
      | some d =>
          rw [htaker] at htreats
          obtain ⟨hfront, hhandles⟩ := htreats
          have hinvalid : (m.manipulate front rest o now).front.validity = .invalid := by
            rw [hfront]
          obtain ⟨hwaits, hsame, houtput⟩ := manipulateAll_of_invalid rest now hplain hinvalid
            (m.manipulate front rest o now).output
          rw [hsame, houtput]
          exact ⟨hwaits, hfront, hhandles⟩

end Manipulator

/-! ### The connection -/

/-- A connection whose manager has manipulators of both kinds. -/
structure KindsConnection where
  input : Queue := {}
  manipulators : List Manipulator := []
  output : Output

namespace KindsConnection

omit [Exprtk] [SystemClock] [MachTimebase] in
/-- `remove_invalid_manipulators`. -/
def removeInvalidManipulators (ms : List Manipulator) : List Manipulator :=
  ms.filter fun m => !(m.validity = .invalid && !m.active)

omit [Exprtk] [SystemClock] [MachTimebase] in
/-- An update: `invalidate_manipulators`, then `push_back_manipulator` for each definition. -/
def update (definitions : List ManipulatorDefinition) (ms : List Manipulator) : List Manipulator :=
  removeInvalidManipulators (ms.map Manipulator.invalidate) ++
    definitions.map ManipulatorDefinition.make

/-- The `switch` on the type of the front event. -/
def handleFront (c : KindsConnection) (front : Entry) (rest : List Entry) (now : AbsoluteTime) :
    Manipulator.Pass :=
  match front.event with
  | .deviceKeysAndPointingButtonsAreReleased =>
    let queue :=
      { c.output.queue with
        modifierFlagManager :=
          c.output.queue.modifierFlagManager.eraseAllActiveModifierFlagsExceptLockAndSticky
            front.deviceId
        pointingButtonManager :=
          c.output.queue.pointingButtonManager.eraseAllActivePointingButtonsExceptLock
            front.deviceId }
    ⟨false, c.manipulators, front, { c.output with queue := queue }⟩
  | .deviceUngrabbed =>
    let queue :=
      { c.output.queue with
        modifierFlagManager :=
          c.output.queue.modifierFlagManager.eraseAllActiveModifierFlags front.deviceId
        pointingButtonManager :=
          c.output.queue.pointingButtonManager.eraseAllActivePointingButtons front.deviceId }
    ⟨false, c.manipulators.map (Manipulator.handleDeviceUngrabbedEvent front.deviceId), front,
      { c.output with queue := queue }⟩
  | .pointingDeviceEventFromEventTap =>
    ⟨false, c.manipulators.map (Manipulator.handlePointingDeviceEventFromEventTap front), front,
      c.output⟩
  | .none | .deviceGrabbed _ | .frontmostApplicationChanged _ | .inputSourceChanged _
  | .setVariable _ | .virtualHidDevicesStateChanged _ => ⟨false, c.manipulators, front, c.output⟩
  | .momentarySwitchEvent _ | .pointingMotion _ | .shellCommand _ | .selectInputSource _
  | .setNotificationMessage _ | .mouseKey _ | .stickyModifier _ _ | .softwareFunction _
  | .stopKeyboardRepeat | .capsLockStateChanged _ | .systemPreferencesPropertiesChanged _ =>
    if front.validity = .valid && c.manipulators.any (Manipulator.alreadyManipulated front) then
      ⟨false, c.manipulators, { front with validity := .invalid }, c.output⟩
    else Manipulator.manipulateAll rest now c.manipulators front c.output

/-- `manipulator_manager::manipulate`. -/
def manipulate (c : KindsConnection) (now : AbsoluteTime) (reorder : Bool) : KindsConnection :=
  match c.input.events with
  | [] => { c with manipulators := removeInvalidManipulators c.manipulators }
  | front :: rest =>
    let p := c.handleFront front rest now
    if p.waits then
      { input := { c.input with events := p.front :: rest }
        manipulators := removeInvalidManipulators p.manipulators
        output := p.output }
    else
      { input := c.input.eraseFrontEvent
        manipulators := p.manipulators
        output := Connection.copyFront p.front reorder p.output }

/-- What may happen to the connection. -/
inductive Input
  | arrive (e : Entry)
  | manipulate (now : AbsoluteTime) (reorder : Bool)
  | update (definitions : List ManipulatorDefinition)
  /-- Anything else that changes the output queue or the world. -/
  | outside (output : Output)

/-- One step. -/
def step (c : KindsConnection) : Input → KindsConnection
  | .arrive e =>
    let input := Output.emplaceBackEntry ⟨c.input, c.output.world⟩ e
    { c with input := input.queue, output.world := input.world }
  | .manipulate now reorder => c.manipulate now reorder
  | .update definitions => { c with manipulators := update definitions c.manipulators }
  | .outside output => { c with output := output }

/-- The definitions of the last update. -/
def lastUpdate (definitions : List ManipulatorDefinition) : List Input → List ManipulatorDefinition
  | [] => definitions
  | .update definitions' :: is => lastUpdate definitions' is
  | _ :: is => lastUpdate definitions is

/-- Every definition that an update brings is plain. -/
def PlainInput : Input → Prop
  | .update definitions => ∀ d ∈ definitions, d.Plain
  | _ => True

/-! ### The manipulators of the last update -/

/-- The manipulators are those of these definitions, after some that are invalid. -/
def Loaded (definitions : List ManipulatorDefinition) (ms : List Manipulator) : Prop :=
  (∀ m ∈ ms, m.definition.Plain) ∧
    (ms.filter fun m => m.validity = .valid).map Manipulator.definition = definitions

omit [SystemClock] [MachTimebase] in
/-- Manipulators in a later state are as loaded as before. -/
theorem loaded_of_same {definitions : List ManipulatorDefinition} {ms ms' : List Manipulator}
    (hsame : List.Forall₂ Manipulator.Same ms ms') (h : Loaded definitions ms) :
    Loaded definitions ms' := by
  obtain ⟨hplain, rfl⟩ := h
  induction hsame with
  | nil => exact ⟨hplain, rfl⟩
  | @cons m m' ms ms' hhead _ ih =>
      obtain ⟨htail, hvalid⟩ := ih fun n hn => hplain n (List.mem_cons_of_mem m hn)
      refine ⟨fun n hn => ?_, ?_⟩
      · rcases List.mem_cons.mp hn with rfl | hn
        · rw [hhead.definition]
          exact hplain m List.mem_cons_self
        · exact htail n hn
      · cases hvalidity : m.validity with
        | valid => simp [hhead.validity, hvalidity, hhead.definition, hvalid]
        | invalid => simp [hhead.validity, hvalidity, hvalid]

omit [SystemClock] [MachTimebase] in
/-- Only manipulators that are invalid are removed. -/
theorem loaded_removeInvalidManipulators {definitions : List ManipulatorDefinition}
    {ms : List Manipulator} (h : Loaded definitions ms) :
    Loaded definitions (removeInvalidManipulators ms) := by
  obtain ⟨hplain, rfl⟩ := h
  refine ⟨fun m hm => hplain m (List.mem_of_mem_filter hm), ?_⟩
  rw [removeInvalidManipulators, List.filter_filter]
  congr 1
  refine List.filter_congr fun m _ => ?_
  cases m.validity <;> simp

omit [SystemClock] [MachTimebase] in
/-- An update leaves no other valid manipulators. -/
theorem loaded_update {definitions definitions' : List ManipulatorDefinition}
    {ms : List Manipulator} (h : Loaded definitions ms) (hplain : ∀ d ∈ definitions', d.Plain) :
    Loaded definitions' (update definitions' ms) := by
  have hold : (removeInvalidManipulators (ms.map Manipulator.invalidate)).filter
      (fun m => m.validity = .valid) = [] := by
    rw [List.filter_eq_nil_iff]
    intro m hm
    obtain ⟨m₀, -, rfl⟩ := List.mem_map.mp (List.mem_of_mem_filter hm)
    simp [m₀.validity_invalidate]
  have hnew : (definitions'.map ManipulatorDefinition.make).filter
      (fun m => m.validity = .valid) = definitions'.map ManipulatorDefinition.make := by
    rw [List.filter_eq_self]
    intro m hm
    obtain ⟨d, -, rfl⟩ := List.mem_map.mp hm
    simp [Manipulator.validity_make]
  refine ⟨fun m hm => ?_, ?_⟩
  · rcases List.mem_append.mp hm with hm | hm
    · obtain ⟨m₀, hm₀, rfl⟩ := List.mem_map.mp (List.mem_of_mem_filter hm)
      rw [m₀.definition_invalidate]
      exact h.1 m₀ hm₀
    · obtain ⟨d, hd, rfl⟩ := List.mem_map.mp hm
      rw [Manipulator.definition_make]
      exact hplain d hd
  · rw [update, List.filter_append, hold, hnew, List.nil_append, List.map_map]
    conv_rhs => rw [← definitions'.map_id]
    exact List.map_congr_left fun d _ => Manipulator.definition_make d

/-- **The front entry replaces no manipulator**, whatever its type is. -/
theorem same_handleFront (c : KindsConnection) (front : Entry) (rest : List Entry)
    (now : AbsoluteTime) :
    List.Forall₂ Manipulator.Same c.manipulators (c.handleFront front rest now).manipulators := by
  have hrefl : List.Forall₂ Manipulator.Same c.manipulators c.manipulators :=
    List.forall₂_same.mpr fun m _ => .refl m
  unfold handleFront
  split
  case h_2 =>
    exact List.forall₂_map_right_iff.mpr
      (List.forall₂_same.mpr fun m _ => m.same_handleDeviceUngrabbedEvent front.deviceId)
  case h_3 =>
    exact List.forall₂_map_right_iff.mpr
      (List.forall₂_same.mpr fun m _ => m.same_handlePointingDeviceEventFromEventTap front)
  all_goals
    first
    | exact hrefl
    | split_ifs
      · exact hrefl
      · exact Manipulator.same_manipulateAll rest now c.manipulators front c.output

/-- A call removes invalid manipulators at most. -/
theorem loaded_manipulate {definitions : List ManipulatorDefinition} {c : KindsConnection}
    (h : Loaded definitions c.manipulators) (now : AbsoluteTime) (reorder : Bool) :
    Loaded definitions (c.manipulate now reorder).manipulators := by
  unfold manipulate
  split
  · exact loaded_removeInvalidManipulators h
  · next front rest _ =>
      have hpass := loaded_of_same (c.same_handleFront front rest now) h
      dsimp only
      split_ifs
      · exact loaded_removeInvalidManipulators hpass
      · exact hpass

/-- **After any run** the valid manipulators are those of the last update. -/
theorem loaded_run {definitions : List ManipulatorDefinition} {c : KindsConnection}
    (h : Loaded definitions c.manipulators) {is : List Input} (his : ∀ i ∈ is, PlainInput i) :
    Loaded (lastUpdate definitions is) (Machine.run step c is).manipulators := by
  induction is generalizing definitions c with
  | nil => exact h
  | cons i is ih =>
      have hrest : ∀ j ∈ is, PlainInput j := fun j hj => his j (List.mem_cons_of_mem i hj)
      cases i with
      | arrive e => exact ih h hrest
      | manipulate now reorder => exact ih (loaded_manipulate h now reorder) hrest
      | update definitions' => exact ih (loaded_update h (his _ List.mem_cons_self)) hrest
      | outside output => exact ih h hrest

omit [SystemClock] [MachTimebase] in
/-- Who takes an entry is decided by the definitions. -/
theorem findSome?_taker_of_loaded {definitions : List ManipulatorDefinition}
    {ms : List Manipulator} (h : Loaded definitions ms) (front : Entry) (o : Output) :
    ms.findSome? (Manipulator.taker front o) = definitions.find? (·.takes front o) := by
  obtain ⟨-, rfl⟩ := h
  induction ms with
  | nil => rfl
  | cons m ms ih =>
      rw [List.findSome?_cons, ih, Manipulator.taker]
      cases hvalidity : m.validity with
      | invalid => simp [hvalidity]
      | valid => cases htakes : m.definition.takes front o <;> simp [hvalidity, htakes]

/-- **A press or a motion is treated by the last update**, in every state that a run reaches, unless
the press has been manipulated already. -/
theorem manipulate_run {output : Output} {is : List Input} (his : ∀ i ∈ is, PlainInput i)
    {front : Entry} {rest : List Entry}
    (hinput : (Machine.run step { output := output } is).input.events = front :: rest)
    (valid : front.validity = .valid) (hup : front.eventType ≠ .keyUp)
    (hevent : front.event.getMomentarySwitchEvent.isSome ∨ front.event.getPointingMotion.isSome)
    (hfree : ∀ m ∈ (Machine.run step { output := output } is).manipulators,
      m.alreadyManipulated front = false)
    (now : AbsoluteTime) (reorder : Bool) :
    let c := Machine.run step { output := output } is
    ∃ front' o',
      Treats ((lastUpdate [] is).find? (·.takes front c.output)) front c.output front' o' ∧
        (c.manipulate now reorder).input = c.input.eraseFrontEvent ∧
        (c.manipulate now reorder).output = Connection.copyFront front' reorder o' := by
  intro c
  have hloaded : Loaded (lastUpdate [] is) c.manipulators :=
    loaded_run ⟨fun m hm => absurd hm List.not_mem_nil, rfl⟩ his
  have hany : c.manipulators.any (Manipulator.alreadyManipulated front) = false := by
    rw [List.any_eq_false]
    exact fun m hm => Bool.eq_false_iff.mp (hfree m hm)
  have hfront : c.handleFront front rest now =
      Manipulator.manipulateAll rest now c.manipulators front c.output := by
    unfold handleFront
    split <;> simp_all [Event.getMomentarySwitchEvent, Event.getPointingMotion]
  obtain ⟨hwaits, htreats⟩ :=
    Manipulator.manipulateAll_of_plain rest now hloaded.1 valid hup c.output
  rw [findSome?_taker_of_loaded hloaded] at htreats
  refine ⟨_, _, htreats, ?_, ?_⟩ <;>
  · unfold manipulate
    rw [hinput]
    dsimp only
    rw [hfront, if_neg (by simp [hwaits])]

end KindsConnection

end Karabiner
