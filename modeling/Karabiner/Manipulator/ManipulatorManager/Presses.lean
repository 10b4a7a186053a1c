import Karabiner.Manipulator.Basic.Presses
import Karabiner.Manipulator.ManipulatorManager

/-!
# The presses of a connection

What the steps of a connection do to the presses of all its manipulators, as a counter for each
from event (`Connection.holders`).

* `Slot.manipulateAll_spec` — the loop over the manipulators: the front entry is passed by all of
  them, captured by one (`Slot.captor`) or released by one.
* `Connection.step_cases` — **what a step can do** to the holders, the input queue and the
  processed entries.
-/

namespace Karabiner

namespace Slot

/-- How many presses hold a from event. -/
def holders (slots : List Slot) (fe : FromEvent) : ℕ :=
  (slots.map fun slot => slot.basic.holders fe).sum

@[simp] theorem holders_nil (fe : FromEvent) : holders [] fe = 0 := rfl

@[simp] theorem holders_cons (slot : Slot) (slots : List Slot) (fe : FromEvent) :
    holders (slot :: slots) fe = slot.basic.holders fe + holders slots fe := rfl

theorem holders_append (slots slots' : List Slot) (fe : FromEvent) :
    holders (slots ++ slots') fe = holders slots fe + holders slots' fe := by
  simp [holders]

/-- Nobody holds the event if no manipulator does. -/
theorem holders_eq_zero_iff {slots : List Slot} {fe : FromEvent} :
    holders slots fe = 0 ↔ ∀ slot ∈ slots, slot.basic.holders fe = 0 := by
  simp [holders, List.sum_eq_zero_iff]

/-- All manipulators are well-formed. -/
def WellFormed (slots : List Slot) : Prop := ∀ slot ∈ slots, slot.basic.WellFormed

/-- The same manipulator in a later state. -/
structure Same (slot slot' : Slot) : Prop where
  serial : slot'.serial = slot.serial
  definition : slot'.basic.definition = slot.basic.definition
  validity : slot'.basic.validity = slot.basic.validity
  wellFormed : slot.basic.WellFormed → slot'.basic.WellFormed

theorem Same.refl (slot : Slot) : Same slot slot := ⟨rfl, rfl, rfl, id⟩

/-- Well-formed manipulators stay so in later states. -/
theorem wellFormed_of_same {slots slots' : List Slot} (h : List.Forall₂ Same slots slots')
    (hwf : WellFormed slots) : WellFormed slots' := by
  induction h with
  | nil => exact hwf
  | cons hsame _ ih =>
      intro slot hslot
      rcases List.mem_cons.mp hslot with rfl | hslot
      · exact hsame.wellFormed (hwf _ List.mem_cons_self)
      · exact ih (fun s hs => hwf s (List.mem_cons_of_mem _ hs)) slot hslot

variable [Exprtk] [SystemClock] [MachTimebase]

/-- The manipulator at which the loop consumes the front entry. -/
def captor (rest : List Entry) (now : AbsoluteTime) : List Slot → Entry → Output → Option Slot
  | [], _, _ => none
  | slot :: slots, front, output =>
    let r := slot.basic.manipulate front rest output now
    match r.result with
    | .manipulated => some slot
    | .needsWaitUntilTimeStamp => none
    | .passed => captor rest now slots r.front r.output

omit [Exprtk] [SystemClock] in
/-- The input delay of the front entry does not matter to what is collected. -/
theorem collects_delayed {b : Basic} {front front' : Entry} (h : Basic.Delayed front front')
    (rest : List Entry) (fe : FromEvent) :
    (∃ e, b.Collects front' rest e ∧ e.fromEvent = fe) ↔
      ∃ e, b.Collects front rest e ∧ e.fromEvent = fe := by
  obtain ⟨d, rfl⟩ := h
  simp only [Basic.Collects, Basic.endTimeStamp, window, List.filter_cons]
  cases front.validity with
  | invalid =>
      simp only [reduceCtorEq, decide_false, Bool.false_eq_true, if_false]
      exact Iff.rfl
  | valid =>
      by_cases ht : front.eventTimeStamp.timeStamp ≤
          front.eventTimeStamp.timeStamp + b.definition.simultaneousThreshold
      · simp only [decide_true, if_true, List.takeWhile_cons, ht, IsCollected.cons_iff]
        constructor <;> rintro ⟨e, (⟨rfl, hdown, htest⟩ | he), rfl⟩
        · exact ⟨front, Or.inl ⟨rfl, hdown, htest⟩, rfl⟩
        · exact ⟨e, Or.inr he, rfl⟩
        · exact ⟨_, Or.inl ⟨rfl, hdown, htest⟩, rfl⟩
        · exact ⟨e, Or.inr he, rfl⟩
      · simp [ht]

/-! ### The loop -/

/-- The outcomes of the loop over the manipulators, in terms of the presses. -/
inductive Outcome (slots : List Slot) (front : Entry) (rest : List Entry)
    (captor : Option Slot) (p : Pass) : Prop
  | passed (delayed : Basic.Delayed front p.front) (held : holders p.slots = holders slots)
      (waits : p.waits = true → front.validity = .valid ∧ front.eventType = .keyDown)
      (unheld : front.validity = .valid → front.eventType = .keyUp →
        holders slots front.fromEvent = 0)
      (none_ : front.eventType = .keyDown → captor = none)
  | captured (slot : Slot) (fromEvents : Finset FromEvent) (waits : p.waits = false)
      (consumed : Basic.Consumed front p.front)
      (held : ∀ fe, holders p.slots fe = holders slots fe + if fe ∈ fromEvents then 1 else 0)
      (valid : front.validity = .valid) (down : front.eventType = .keyDown)
      (some_ : captor = some slot) (mem : slot ∈ slots)
      (target : slot.basic.definition.from_.testEvent front.event = true)
      (collected : ∀ fe, fe ∈ fromEvents ↔
        ∃ e, slot.basic.Collects front rest e ∧ e.fromEvent = fe)
  | released (waits : p.waits = false) (consumed : Basic.Consumed front p.front)
      (valid : front.validity = .valid) (up : front.eventType = .keyUp)
      (pos : 0 < holders slots front.fromEvent)
      (held : ∀ fe, holders p.slots fe =
        holders slots fe - if fe = front.fromEvent then 1 else 0)

/-- `manipulate` changes neither what a manipulator is nor that it is well-formed. -/
theorem same_manipulate (slot : Slot) (front : Entry) (rest : List Entry) (output : Output)
    (now : AbsoluteTime) (hwf : slot.basic.WellFormed) :
    Same slot { slot with basic := (slot.basic.manipulate front rest output now).basic } := by
  cases Basic.manipulate_spec hwf front rest output now with
  | passed _ _ held => exact ⟨rfl, held.definition, held.validity, held.wellFormed⟩
  | waits _ _ held => exact ⟨rfl, held.definition, held.validity, held.wellFormed⟩
  | captured fromEvents _ _ adds _ _ _ _ collected =>
      refine ⟨rfl, adds.definition, adds.validity, fun hwf => adds.wellFormed hwf ?_⟩
      intro fe hfe
      obtain ⟨e, ⟨_, _, _, _, htest, _⟩, rfl⟩ := (collected fe).mp hfe
      exact htest
  | released _ _ _ _ _ _ wellFormed definition validity =>
      exact ⟨rfl, definition, validity, fun _ => wellFormed⟩

/-- Manipulation leaves every manipulator the same. -/
theorem same_manipulateAll (rest : List Entry) (now : AbsoluteTime) {slots : List Slot}
    (hwf : WellFormed slots) (front : Entry) (output : Output) :
    List.Forall₂ Same slots (manipulateAll rest now slots front output).slots := by
  induction slots generalizing front output with
  | nil => exact .nil
  | cons slot slots ih =>
      have hslot := same_manipulate slot front rest output now (hwf slot List.mem_cons_self)
      unfold manipulateAll
      dsimp only
      split_ifs
      · exact .cons hslot (List.forall₂_same.mpr fun s _ => .refl s)
      · exact .cons hslot (ih (fun s hs => hwf s (List.mem_cons_of_mem _ hs)) _ _)

/-- An entry that has been consumed passes through the rest of the loop. -/
theorem manipulateAll_invalid (rest : List Entry) (now : AbsoluteTime) {slots : List Slot}
    (hwf : WellFormed slots) {front : Entry} (hfront : front.validity = .invalid)
    (output : Output) :
    (manipulateAll rest now slots front output).waits = false ∧
      Basic.Delayed front (manipulateAll rest now slots front output).front ∧
      holders (manipulateAll rest now slots front output).slots = holders slots := by
  induction slots generalizing front output with
  | nil => exact ⟨rfl, ⟨front.eventTimeStamp.inputDelayDuration, rfl⟩, rfl⟩
  | cons slot slots ih =>
      unfold manipulateAll
      dsimp only
      cases Basic.manipulate_spec (hwf slot List.mem_cons_self) front rest output now with
      | passed result delayed held =>
          rw [if_neg (by rw [result]; decide)]
          obtain ⟨d, hd⟩ := delayed
          have hinvalid : (slot.basic.manipulate front rest output now).front.validity =
            .invalid := by rw [hd]; exact hfront
          obtain ⟨hwaits, ⟨d', hd'⟩, hheld⟩ := ih (fun s hs => hwf s (List.mem_cons_of_mem _ hs))
            hinvalid (slot.basic.manipulate front rest output now).output
          refine ⟨hwaits, ⟨d', ?_⟩, ?_⟩
          · rw [hd', hd]
          · funext fe
            rw [holders_cons, holders_cons, hheld, held.holders]
      | waits _ _ _ valid => rw [hfront] at valid; cases valid
      | captured _ _ _ _ valid => rw [hfront] at valid; cases valid
      | released _ _ valid => rw [hfront] at valid; cases valid

/-- **The loop over the manipulators**: the front entry is passed by all of them, or one of them
captures or releases it. -/
theorem manipulateAll_spec (rest : List Entry) (now : AbsoluteTime) {slots : List Slot}
    (hwf : WellFormed slots) (front : Entry) (output : Output) :
    Outcome slots front rest (captor rest now slots front output)
      (manipulateAll rest now slots front output) := by
  induction slots generalizing front output with
  | nil =>
      exact .passed ⟨front.eventTimeStamp.inputDelayDuration, rfl⟩ rfl (fun h => by cases h)
        (fun _ _ => rfl) fun _ => rfl
  | cons slot slots ih =>
      have hslots : WellFormed slots := fun s hs => hwf s (List.mem_cons_of_mem _ hs)
      have ih := ih hslots (slot.basic.manipulate front rest output now).front
        (slot.basic.manipulate front rest output now).output
      unfold manipulateAll captor
      dsimp only
      cases Basic.manipulate_spec (hwf slot List.mem_cons_self) front rest output now with
      | passed result delayed held unheld =>
          rw [if_neg (by rw [result]; decide)]
          simp only [result]
          obtain ⟨d, hd⟩ := delayed
          rw [hd] at ih ⊢
          -- the rest of the loop sees the front entry with another input delay
          cases ih with
          | passed delayed' held' waits' unheld' none_' =>
              obtain ⟨d', hd'⟩ := delayed'
              refine .passed ⟨d', hd'⟩ ?_ waits' (fun hvalid hup => ?_) none_'
              · funext fe
                rw [holders_cons, holders_cons, held.holders, held']
              · rw [holders_cons, unheld hvalid hup, zero_add]
                exact unheld' hvalid hup
          | captured slot' fromEvents waits' consumed held' valid down some_' mem target
              collected =>
              obtain ⟨d', hd'⟩ := consumed
              refine .captured slot' fromEvents waits' ⟨d', hd'⟩ (fun fe => ?_) valid down some_'
                (List.mem_cons_of_mem _ mem) target fun fe => ?_
              · rw [holders_cons, holders_cons, held.holders, held', add_assoc]
              · exact (collected fe).trans (collects_delayed ⟨d, rfl⟩ rest fe)
          | released waits' consumed valid up pos held' =>
              obtain ⟨d', hd'⟩ := consumed
              refine .released waits' ⟨d', hd'⟩ valid up (Nat.lt_add_left _ pos) fun fe => ?_
              have hrest := held' fe
              have hzero : slot.basic.holders front.fromEvent = 0 := unheld valid up
              change _ = holders slots fe - if fe = front.fromEvent then 1 else 0 at hrest
              rw [holders_cons, holders_cons, held.holders, hrest]
              split_ifs with hfe
              · rw [hfe, hzero, zero_add, zero_add]
              · rfl
      | waits result delayed held valid down =>
          rw [if_pos result]
          simp only [result]
          refine .passed delayed ?_ (fun _ => ⟨valid, down⟩)
            (fun _ hup => absurd (down.symm.trans hup) (by decide)) fun _ => rfl
          funext fe
          rw [holders_cons, holders_cons, held.holders]
      | captured fromEvents result consumed adds valid down target enabled collected =>
          rw [if_neg (by rw [result]; decide)]
          simp only [result]
          obtain ⟨d, hd⟩ := consumed
          have hinvalid : (slot.basic.manipulate front rest output now).front.validity =
            .invalid := by rw [hd]
          obtain ⟨hwaits, ⟨d', hd'⟩, hheld⟩ := manipulateAll_invalid rest now hslots hinvalid
            (slot.basic.manipulate front rest output now).output
          refine .captured slot fromEvents hwaits ⟨d', ?_⟩ (fun fe => ?_) valid down rfl
            List.mem_cons_self target collected
          · rw [hd', hd]
          · rw [holders_cons, holders_cons, hheld,
              adds.holders (hwf slot List.mem_cons_self)]
            omega
      | released result consumed valid up held holders =>
          rw [if_neg (by rw [result]; decide)]
          obtain ⟨d, hd⟩ := consumed
          have hinvalid : (slot.basic.manipulate front rest output now).front.validity =
            .invalid := by rw [hd]
          obtain ⟨hwaits, ⟨d', hd'⟩, hheld⟩ := manipulateAll_invalid rest now hslots hinvalid
            (slot.basic.manipulate front rest output now).output
          refine .released hwaits ⟨d', ?_⟩ valid up (Nat.lt_of_lt_of_le held
            (Nat.le_add_right _ _)) fun fe => ?_
          · rw [hd', hd]
          · rw [holders_cons, holders_cons, hheld, holders]
            split_ifs with hfe
            · subst hfe
              omega
            · rfl

/-! ### Other steps of the list -/

omit [Exprtk] [SystemClock] [MachTimebase] in
/-- Filtering out manipulators without presses changes no holders. -/
theorem holders_filter {slots : List Slot} {p : Slot → Bool}
    (hp : ∀ slot ∈ slots, p slot = false → slot.basic.active = false) (fe : FromEvent) :
    holders (slots.filter p) fe = holders slots fe := by
  induction slots with
  | nil => rfl
  | cons slot slots ih =>
      have ih := ih fun s hs => hp s (List.mem_cons_of_mem _ hs)
      cases hps : p slot with
      | true => rw [List.filter_cons_of_pos hps, holders_cons, ih, holders_cons]
      | false =>
          have hempty : slot.basic.manipulatedOriginalEvents = [] := by
            simpa [Basic.active] using hp slot List.mem_cons_self hps
          have hzero : slot.basic.holders fe = 0 := by simp [Basic.holders, hempty]
          rw [List.filter_cons_of_neg (by simp [hps]), ih, holders_cons, hzero, zero_add]

omit [Exprtk] [SystemClock] [MachTimebase] in
/-- A function that changes the count of each manipulator alike changes that of all. -/
theorem holders_map {slots : List Slot} {f : Basic → Basic} {fe : FromEvent} {g : ℕ → ℕ}
    (hg : ∀ m n, g (m + n) = g m + g n) (hzero : g 0 = 0)
    (hf : ∀ b, (f b).holders fe = g (b.holders fe)) :
    holders (slots.map fun slot => { slot with basic := f slot.basic }) fe =
      g (holders slots fe) := by
  induction slots with
  | nil => exact hzero.symm
  | cons slot slots ih => rw [List.map_cons, holders_cons, holders_cons, hg, ih, hf]

omit [SystemClock] [MachTimebase] in
/-- A timer leaves the presses alone. -/
theorem fire_spec (serial : ℕ) {f : Basic → Output → Basic × Output}
    (hf : ∀ b output, Basic.SameHeld b (f b output).1) (slots : List Slot) (output : Output) :
    holders (fire serial f slots output).1 = holders slots ∧
      List.Forall₂ Same slots (fire serial f slots output).1 := by
  induction slots generalizing output with
  | nil => exact ⟨rfl, .nil⟩
  | cons slot slots ih =>
      unfold fire
      split_ifs
      · have hheld := hf slot.basic output
        refine ⟨?_, .cons ⟨rfl, hheld.definition, hheld.validity, hheld.wellFormed⟩
          (List.forall₂_same.mpr fun s _ => .refl s)⟩
        funext fe
        exact congrArg (· + holders slots fe) (congrFun hheld.holders fe)
      · obtain ⟨hheld, hsame⟩ := ih output
        refine ⟨?_, .cons (.refl slot) hsame⟩
        funext fe
        exact congrArg (slot.basic.holders fe + ·) (congrFun hheld fe)

end Slot

namespace Connection

variable [Exprtk]

/-- How many presses of the connection's manipulators hold a from event. -/
def holders (c : Connection) (fe : FromEvent) : ℕ := Slot.holders c.manager.manipulators fe

/-- All manipulators are well-formed. -/
def WellFormed (c : Connection) : Prop := Slot.WellFormed c.manager.manipulators

/-- A key_down is taken as manipulated already if some press holds its event. -/
theorem alreadyManipulated_iff (c : Connection) (front : Entry) :
    c.manager.alreadyManipulated front = true ↔
      front.eventType = .keyDown ∧ 0 < c.holders front.fromEvent := by
  rw [ManipulatorManager.alreadyManipulated, List.any_eq_true, Nat.pos_iff_ne_zero, Ne, holders,
    Slot.holders_eq_zero_iff]
  simp only [Basic.alreadyManipulated_iff, Nat.pos_iff_ne_zero]
  grind

/-- Only momentary switches are held. -/
theorem holders_eq_zero {c : Connection} (hwf : c.WellFormed) {fe : FromEvent}
    (hfe : ∀ e, fe.event ≠ .momentarySwitchEvent e) : c.holders fe = 0 := by
  refine Slot.holders_eq_zero_iff.mpr fun slot hslot => List.countP_eq_zero.mpr ?_
  intro id hid hexists
  obtain ⟨e, he⟩ := FromEventDefinition.exists_of_testEvent
    ((hwf slot hslot).matches_ id hid fe hexists)
  exact hfe e he

variable [SystemClock] [MachTimebase]

/-- The next step captures the front entry, by the manipulator in this slot. -/
structure Captures (c : Connection) (now : AbsoluteTime) (front : Entry) (rest : List Entry)
    (slot : Slot) : Prop where
  events : c.input.events = front :: rest
  down : front.eventType = .keyDown
  free : c.manager.alreadyManipulated front = false
  captor : Slot.captor rest now c.manager.manipulators front c.output = some slot

/-- A manipulator only captures a valid momentary switch. -/
theorem Captures.target {c : Connection} (hwf : c.WellFormed) {now : AbsoluteTime}
    {front : Entry} {rest : List Entry} {slot : Slot} (h : c.Captures now front rest slot) :
    front.validity = .valid ∧ ∃ e, front.event = .momentarySwitchEvent e := by
  have hspec := Slot.manipulateAll_spec rest now hwf front c.output
  rw [h.captor] at hspec
  cases hspec with
  | passed _ _ _ _ none_ => cases none_ h.down
  | captured _ _ _ _ _ valid _ _ _ target =>
      exact ⟨valid, FromEventDefinition.exists_of_testEvent target⟩
  | released _ _ _ up => exact absurd (h.down.symm.trans up) (by decide)

/-- The input lets no manipulator capture the front entry. -/
def Quiet (c : Connection) (i : Input) : Prop :=
  ∀ now reorder, i = .manipulate now reorder →
    ∀ front rest slot, ¬ c.Captures now front rest slot

omit [SystemClock] [MachTimebase] in
/-- The front entry leaves the input queue. -/
structure Takes (c c' : Connection) (front front' : Entry) (rest : List Entry) : Prop where
  events : c.input.events = front :: rest
  events' : c'.input.events = rest
  processed : c'.processed = c.processed ++ [front']

omit [SystemClock] [MachTimebase] in
/-- The input queue when no entry leaves it: an entry arrives, or only the input delay of the
front entry may change. -/
def Keeps (c : Connection) (i : Input) (c' : Connection) : Prop :=
  (∃ e, i = .arrive e ∧ c'.input.events = c.input.events ++ [c.input.delay e]) ∨
    (∀ e, i ≠ .arrive e) ∧ (c'.input.events = c.input.events ∨
      ∃ front front' rest, c.input.events = front :: rest ∧ Basic.Delayed front front' ∧
        c'.input.events = front' :: rest)

/-- What a step can do, in terms of the presses. -/
inductive Effect (c : Connection) (i : Input) (c' : Connection) : Prop
  | idle (held : c'.holders = c.holders) (processed : c'.processed = c.processed)
      (keeps : c.Keeps i c') (quiet : c.Quiet i)
      (waits : ∀ now reorder, i = .manipulate now reorder →
        ∀ front rest, c.input.events = front :: rest → front.eventType = .keyDown)
  | passed (front front' : Entry) (rest : List Entry) (takes : Takes c c' front front' rest)
      (delayed : Basic.Delayed front front') (held : c'.holders = c.holders)
      (unheld : front.validity = .valid → front.eventType ≠ .single →
        c.holders front.fromEvent = 0)
      (quiet : c.Quiet i)
  | swallowed (front front' : Entry) (rest : List Entry) (takes : Takes c c' front front' rest)
      (consumed : Basic.Consumed front front') (held : c'.holders = c.holders)
      (valid : front.validity = .valid) (down : front.eventType = .keyDown)
      (pos : 0 < c.holders front.fromEvent)
  | captured (now : AbsoluteTime) (reorder : Bool) (front front' : Entry) (rest : List Entry)
      (slot : Slot) (fromEvents : Finset FromEvent) (input : i = .manipulate now reorder)
      (takes : Takes c c' front front' rest) (consumed : Basic.Consumed front front')
      (captures : c.Captures now front rest slot)
      (held : ∀ fe, c'.holders fe = c.holders fe + if fe ∈ fromEvents then 1 else 0)
      (valid : front.validity = .valid) (unheld : c.holders front.fromEvent = 0)
      (collected : ∀ fe, fe ∈ fromEvents ↔
        ∃ e, slot.basic.Collects front rest e ∧ e.fromEvent = fe)
      (mem : front.fromEvent ∈ fromEvents)
  | released (front front' : Entry) (rest : List Entry) (takes : Takes c c' front front' rest)
      (consumed : Basic.Consumed front front') (valid : front.validity = .valid)
      (up : front.eventType = .keyUp) (pos : 0 < c.holders front.fromEvent)
      (held : ∀ fe, c'.holders fe = c.holders fe - if fe = front.fromEvent then 1 else 0)
  | ungrabbed (front : Entry) (rest : List Entry) (takes : Takes c c' front front rest)
      (event : front.event = .deviceUngrabbed) (quiet : c.Quiet i)
      (held : ∀ fe, c'.holders fe = if fe.deviceId = front.deviceId then 0 else c.holders fe)

/-- The presses of a manager. -/
def Handled.holders (h : Handled) (fe : FromEvent) : ℕ := Slot.holders h.manager.manipulators fe

omit [SystemClock] [MachTimebase] in
/-- A change that keeps what is held keeps the count. -/
theorem holders_map_of_sameHeld {f : Basic → Basic} (hf : ∀ b, Basic.SameHeld b (f b))
    (c : Connection) (fe : FromEvent) :
    Slot.holders (c.manager.map f).manipulators fe = c.holders fe :=
  Slot.holders_map (g := id) (fun _ _ => rfl) rfl fun b => congrFun (hf b).holders fe

/-- The three groups of cases of the `switch`. -/
theorem handleFront_cases (c : Connection) (front : Entry) (rest : List Entry)
    (now : AbsoluteTime) :
    c.handleFront front rest now = c.manipulateFront front rest now ∨
      ((c.handleFront front rest now).waits = false ∧
        (c.handleFront front rest now).front = front ∧
        (∀ e, front.event ≠ .momentarySwitchEvent e) ∧
        ((∀ fe, (c.handleFront front rest now).holders fe = c.holders fe) ∨
          front.event = .deviceUngrabbed ∧ ∀ fe, (c.handleFront front rest now).holders fe =
            if fe.deviceId = front.deviceId then 0 else c.holders fe)) := by
  cases hevent : front.event with
  | deviceUngrabbed =>
      refine Or.inr ⟨?_, ?_, by simp, Or.inr ⟨rfl, fun fe => ?_⟩⟩ <;>
        simp only [handleFront, hevent]
      refine Slot.holders_map (g := fun n => if fe.deviceId = front.deviceId then 0 else n)
        (fun m n => ?_) (ite_self 0)
        fun b => b.holders_handleDeviceUngrabbedEvent front.deviceId fe
      split_ifs <;> rfl
  | pointingDeviceEventFromEventTap =>
      refine Or.inr ⟨?_, ?_, by simp, Or.inl fun fe => ?_⟩ <;> simp only [handleFront, hevent]
      exact c.holders_map_of_sameHeld (fun b => b.sameHeld_unsetAloneIfNeeded _ _) fe
  | deviceKeysAndPointingButtonsAreReleased | none | deviceGrabbed _
  | frontmostApplicationChanged _ | inputSourceChanged _ | setVariable _
  | virtualHidDevicesStateChanged _ =>
      refine Or.inr ⟨?_, ?_, by simp, Or.inl fun fe => ?_⟩ <;> simp only [handleFront, hevent]
      rfl
  | momentarySwitchEvent _ | pointingMotion _ | shellCommand _ | selectInputSource _
  | setNotificationMessage _ | mouseKey _ | stickyModifier _ _ | softwareFunction _
  | stopKeyboardRepeat | capsLockStateChanged _ | systemPreferencesPropertiesChanged _ =>
      refine Or.inl ?_
      simp only [handleFront, hevent]

omit [Exprtk] [SystemClock] [MachTimebase] in
/-- Removing inactive manipulators changes no holders. -/
theorem holders_removeInvalidManipulators (m : ManipulatorManager) (fe : FromEvent) :
    Slot.holders m.removeInvalidManipulators.manipulators fe = Slot.holders m.manipulators fe :=
  Slot.holders_filter (fun slot _ hslot => by simpa using (by simpa using hslot : _ ∧ _).2) fe

/-- What `manipulate` can do. -/
theorem effect_manipulate {c : Connection} (hwf : c.WellFormed) (now : AbsoluteTime)
    (reorder : Bool) : Effect c (.manipulate now reorder) (c.manipulate now reorder) := by
  -- the input and the queue determine the clock and the front entry of a capture
  have hquiet {front : Entry} {rest : List Entry} (hevents : c.input.events = front :: rest)
      (h : ∀ slot, ¬ c.Captures now front rest slot) : c.Quiet (.manipulate now reorder) := by
    intro now' reorder' hinput front' rest' slot hc
    cases hinput
    obtain ⟨rfl, rfl⟩ := List.cons_eq_cons.mp (hevents.symm.trans hc.events)
    exact h slot hc
  unfold manipulate
  cases hevents : c.input.events with
  | nil =>
      refine .idle (funext fun fe => holders_removeInvalidManipulators _ fe) rfl
        (Or.inr ⟨by simp, Or.inl rfl⟩) ?_ ?_
      · rintro _ _ - front rest slot hc
        cases hevents.symm.trans hc.events
      · rintro _ _ - front rest h
        cases hevents.symm.trans h
  | cons front rest =>
      have hrest : c.input.eraseFrontEvent.events = rest := by
        simp [Queue.eraseFrontEvent, hevents]
      dsimp only
      rcases c.handleFront_cases front rest now with hfront | ⟨hwaits, hfront, hevent, hheld⟩
      · rw [hfront]
        unfold manipulateFront
        by_cases hskip : (front.validity = .valid && c.manager.alreadyManipulated front) = true
        · rw [if_pos hskip]
          rw [Bool.and_eq_true, decide_eq_true_eq, alreadyManipulated_iff] at hskip
          exact .swallowed front _ rest ⟨hevents, hrest, rfl⟩
            ⟨front.eventTimeStamp.inputDelayDuration, rfl⟩ rfl hskip.1 hskip.2.1 hskip.2.2
        · rw [if_neg hskip]
          have hfree : front.validity = .valid → c.manager.alreadyManipulated front = false := by
            intro hvalid
            simpa [hvalid] using hskip
          have hunheld : front.validity = .valid → front.eventType = .keyDown →
              c.holders front.fromEvent = 0 := by
            intro hvalid hdown
            by_contra hpos
            have hmanipulated := (c.alreadyManipulated_iff front).mpr
              ⟨hdown, Nat.pos_of_ne_zero hpos⟩
            rw [hfree hvalid] at hmanipulated
            cases hmanipulated
          dsimp only
          cases Slot.manipulateAll_spec rest now hwf front c.output with
          | passed delayed held waits unheld none_ =>
              have hq : c.Quiet (.manipulate now reorder) := by
                refine hquiet hevents fun slot hc => ?_
                cases (none_ hc.down).symm.trans hc.captor
              split_ifs with hwaits
              · refine .idle (funext fun fe => ?_) rfl
                  (Or.inr ⟨by simp, Or.inr ⟨front, _, rest, hevents, delayed, rfl⟩⟩) hq ?_
                · exact (holders_removeInvalidManipulators _ fe).trans (congrFun held fe)
                · rintro _ _ - front₂ rest₂ h
                  obtain ⟨rfl, -⟩ := List.cons_eq_cons.mp (hevents.symm.trans h)
                  exact (waits hwaits).2
              · refine .passed front _ rest ⟨hevents, hrest, rfl⟩ delayed (funext fun fe => ?_) ?_
                  hq
                · exact congrFun held fe
                · intro hvalid hsingle
                  cases htype : front.eventType with
                  | keyDown => exact hunheld hvalid htype
                  | keyUp => exact unheld hvalid htype
                  | single => exact absurd htype hsingle
          | captured slot fromEvents waits consumed held valid down some_ mem target collected =>
              rw [if_neg (by rw [waits]; decide)]
              exact .captured now reorder front _ rest slot fromEvents rfl ⟨hevents, hrest, rfl⟩
                consumed
                ⟨hevents, down, hfree valid, some_⟩ held valid (hunheld valid down) collected
                ((collected _).mpr ⟨front, Basic.collects_front valid down target rest, rfl⟩)
          | released waits consumed valid up pos held =>
              rw [if_neg (by rw [waits]; decide)]
              exact .released front _ rest ⟨hevents, hrest, rfl⟩ consumed valid up pos held
      · have hq : c.Quiet (.manipulate now reorder) :=
          hquiet hevents fun slot hc => (hc.target hwf).2.elim hevent
        rw [if_neg (by rw [hwaits]; decide)]
        rcases hheld with hheld | ⟨hungrabbed, hheld⟩
        · exact .passed front _ rest ⟨hevents, hrest, rfl⟩
            ⟨front.eventTimeStamp.inputDelayDuration, hfront⟩ (funext hheld)
            (fun _ _ => holders_eq_zero hwf hevent) hq
        · exact .ungrabbed front rest ⟨hevents, hrest, by rw [hfront]⟩ hungrabbed hq hheld

/-- **What a step can do** to the presses of a connection. -/
theorem effect_step {c : Connection} (hwf : c.WellFormed) (i : Input) :
    Effect c i (c.step i) := by
  have hidle {i : Input} (h : ∀ now reorder, i ≠ .manipulate now reorder)
      (held : (c.step i).holders = c.holders) (processed : (c.step i).processed = c.processed)
      (keeps : c.Keeps i (c.step i)) : Effect c i (c.step i) :=
    .idle held processed keeps (fun now reorder hi => absurd hi (h now reorder))
      fun now reorder hi => absurd hi (h now reorder)
  have hsame {i : Input} (h : ∀ e, i ≠ .arrive e)
      (hevents : (c.step i).input.events = c.input.events) : c.Keeps i (c.step i) :=
    Or.inr ⟨h, Or.inl hevents⟩
  cases i with
  | arrive e => exact hidle (by simp) rfl rfl (Or.inl ⟨e, rfl, rfl⟩)
  | manipulate now reorder => exact effect_manipulate hwf now reorder
  | fireHeldDown serial id =>
      exact hidle (by simp) (Slot.fire_spec serial
        (fun b output => b.sameHeld_fireHeldDown id output) c.manager.manipulators c.output).1 rfl
        (hsame (by simp) rfl)
  | fireDelayedAction serial id =>
      exact hidle (by simp) (Slot.fire_spec serial
        (fun b output => b.sameHeld_fireDelayedAction id output) c.manager.manipulators
        c.output).1 rfl (hsame (by simp) rfl)
  | invalidateManipulators =>
      refine hidle (by simp) (funext fun fe => ?_) rfl (hsame (by simp) rfl)
      refine (holders_removeInvalidManipulators _ fe).trans ?_
      exact Slot.holders_map (f := fun b => { b with validity := .invalid }) (g := id)
        (fun _ _ => rfl) rfl fun _ => rfl
  | pushBackManipulator d =>
      refine hidle (by simp) (funext fun fe => ?_) rfl (hsame (by simp) rfl)
      exact Slot.holders_append c.manager.manipulators _ fe
  | outside output => exact hidle (by simp) rfl rfl (hsame (by simp) rfl)

/-! ### Well-formedness -/

omit [Exprtk] [SystemClock] [MachTimebase] in
/-- A function that keeps each manipulator well-formed keeps all of them so. -/
theorem wellFormed_map {slots : List Slot} (h : Slot.WellFormed slots) {f : Basic → Basic}
    (hf : ∀ b, b.WellFormed → (f b).WellFormed) :
    Slot.WellFormed (slots.map fun slot => { slot with basic := f slot.basic }) := by
  intro slot hslot
  obtain ⟨slot', hslot', rfl⟩ := List.mem_map.mp hslot
  exact hf _ (h slot' hslot')

/-- Handling an entry keeps them well-formed. -/
theorem wellFormed_handleFront {c : Connection} (hwf : c.WellFormed) (front : Entry)
    (rest : List Entry) (now : AbsoluteTime) :
    Slot.WellFormed (c.handleFront front rest now).manager.manipulators := by
  have hmanipulate : Slot.WellFormed (c.manipulateFront front rest now).manager.manipulators := by
    unfold manipulateFront
    split_ifs
    · exact hwf
    · exact Slot.wellFormed_of_same (Slot.same_manipulateAll rest now hwf front c.output) hwf
  cases hevent : front.event <;> simp only [handleFront, hevent] <;>
    first
      | exact hmanipulate
      | exact hwf
      | exact wellFormed_map hwf fun b hb => Basic.wellFormed_handleDeviceUngrabbedEvent hb _
      | exact wellFormed_map hwf fun b hb => (b.sameHeld_unsetAloneIfNeeded _ _).wellFormed hb

/-- Every step keeps the manipulators well-formed. -/
theorem wellFormed_step {c : Connection} (hwf : c.WellFormed) (i : Input) :
    (c.step i).WellFormed := by
  have hremove {m : ManipulatorManager} (h : Slot.WellFormed m.manipulators) :
      Slot.WellFormed m.removeInvalidManipulators.manipulators := fun slot hslot =>
    h slot (List.mem_of_mem_filter hslot)
  cases i with
  | arrive e => exact hwf
  | manipulate now reorder =>
      simp only [step, manipulate]
      split
      · exact hremove hwf
      · rename_i front rest _
        have hfront := wellFormed_handleFront hwf front rest now
        split_ifs
        · exact hremove hfront
        · exact hfront
  | fireHeldDown serial id =>
      exact Slot.wellFormed_of_same (Slot.fire_spec serial
        (fun b output => b.sameHeld_fireHeldDown id output) _ c.output).2 hwf
  | fireDelayedAction serial id =>
      exact Slot.wellFormed_of_same (Slot.fire_spec serial
        (fun b output => b.sameHeld_fireDelayedAction id output) _ c.output).2 hwf
  | invalidateManipulators =>
      exact hremove (wellFormed_map (f := fun b => { b with validity := .invalid }) hwf
        fun b hb => ⟨hb.nodup, hb.lt, hb.matches_⟩)
  | pushBackManipulator d =>
      intro slot hslot
      rcases List.mem_append.mp hslot with hslot | hslot
      · exact hwf slot hslot
      · rw [List.mem_singleton.mp hslot]
        exact ⟨List.nodup_nil, by simp, by simp⟩
  | outside output => exact hwf

omit [SystemClock] [MachTimebase] in
/-- The manipulators of a new connection are new. -/
theorem exists_of_mem_initial {definitions : List BasicDefinition} {output : Output} {slot : Slot}
    (h : slot ∈ (initial definitions output).manager.manipulators) :
    ∃ d ∈ definitions, slot.basic = { definition := d } := by
  have hpush (ds : List BasicDefinition) : ∀ m : ManipulatorManager,
      slot ∈ (ds.foldl ManipulatorManager.pushBackManipulator m).manipulators →
      slot ∈ m.manipulators ∨ ∃ d ∈ ds, slot.basic = { definition := d } := by
    induction ds with
    | nil => exact fun m hm => Or.inl hm
    | cons d ds ih =>
        intro m hm
        rcases ih _ hm with hm | ⟨d', hd', heq⟩
        · rcases List.mem_append.mp hm with hm | hm
          · exact Or.inl hm
          · exact Or.inr ⟨d, List.mem_cons_self, by rw [List.mem_singleton.mp hm]⟩
        · exact Or.inr ⟨d', List.mem_cons_of_mem _ hd', heq⟩
  rcases hpush definitions {} h with h | h
  · exact absurd h List.not_mem_nil
  · exact h

omit [SystemClock] [MachTimebase] in
/-- A new connection has well-formed manipulators and no presses. -/
theorem initial_spec (definitions : List BasicDefinition) (output : Output) :
    (initial definitions output).WellFormed ∧
      ∀ fe, (initial definitions output).holders fe = 0 := by
  refine ⟨fun slot hslot => ?_, fun fe => Slot.holders_eq_zero_iff.mpr fun slot hslot => ?_⟩
  · obtain ⟨d, -, hd⟩ := exists_of_mem_initial hslot
    rw [hd]
    exact ⟨List.nodup_nil, by simp, by simp⟩
  · obtain ⟨d, -, hd⟩ := exists_of_mem_initial hslot
    rw [hd]
    rfl

/-- The manipulators are well-formed in every reachable state. -/
theorem wellFormed_run (definitions : List BasicDefinition) (output : Output)
    (is : List Input) : (Machine.run step (initial definitions output) is).WellFormed :=
  @Machine.run_invariant _ _ _ WellFormed (fun _ i h => wellFormed_step h i) _
    (initial_spec definitions output).1 is

end Connection

end Karabiner
