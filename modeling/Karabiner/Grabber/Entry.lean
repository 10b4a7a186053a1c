import Karabiner.EventQueue.Utility.TimeOrder
import Karabiner.Library.Machine

/-!
# A grabbed device

`core/grabber/device_grabber_details/entry.hpp`: the handler of the values a HID device sends.  It
turns a batch of values into event queue entries, follows the pressed switches of the device, and
signals the entries to the device grabber.

The handler calls `insert_device_keys_and_pointing_buttons_are_released_event`, which returns a new
list, and then signals the list it had before.  `delivered_eq_withReleased_iff` says for which runs
this makes no difference: those in which the device never releases the last of its switches.
-/

namespace Karabiner

/-! ### The values of a device -/

/-- `hid_queue_values_converter::make_hid_values`: a time stamp that goes back is replaced by the
last one of the device. -/
def makeHidValues : List HidValue → AbsoluteTime → List HidValue × AbsoluteTime
  | [], last => ([], last)
  | v :: vs, last =>
    let (v, last) :=
      if v.timeStamp < last then ({ v with timeStamp := last }, last) else (v, v.timeStamp)
    let (vs, last) := makeHidValues vs last
    (v :: vs, last)

theorem le_of_mem_makeHidValues {values : List HidValue} {last : AbsoluteTime} :
    ∀ v ∈ (makeHidValues values last).1, last ≤ v.timeStamp := by
  induction values generalizing last with
  | nil => simp [makeHidValues]
  | cons v values ih =>
      unfold makeHidValues
      split_ifs with hlt
      · exact List.forall_mem_cons.mpr ⟨le_rfl, ih⟩
      · exact List.forall_mem_cons.mpr ⟨not_lt.mp hlt, fun w hw => (not_lt.mp hlt).trans (ih w hw)⟩

/-- **The time stamps of the values never go backwards.** -/
theorem pairwise_makeHidValues (values : List HidValue) (last : AbsoluteTime) :
    (makeHidValues values last).1.Pairwise fun v w => v.timeStamp ≤ w.timeStamp := by
  induction values generalizing last with
  | nil => exact List.Pairwise.nil
  | cons v values ih =>
      unfold makeHidValues
      split_ifs
      · exact List.Pairwise.cons le_of_mem_makeHidValues (ih _)
      · exact List.Pairwise.cons le_of_mem_makeHidValues (ih _)

/-- A batch of values, and what the configuration says for the device when it arrives. -/
structure Batch where
  values : List HidValue
  ignoreVendorEvents : Bool := false
  filterUselessEventsFromSpecificDevices : Bool := false
  parameters : MakeEntriesParameters := {}

/-- `device_grabber_details::entry`, what its `values_arrived` handler reads and writes. -/
structure DeviceEntry where
  deviceProperties : DeviceProperties
  lastTimeStamp : AbsoluteTime := 0
  lastDirection : Direction := {}
  pressedKeysManager : PressedKeysManager := ∅
deriving DecidableEq

namespace DeviceEntry

/-- The values the handler removes from a batch. -/
def removed (d : DeviceEntry) (b : Batch) (v : HidValue) : Bool :=
  let p := d.deviceProperties
  (b.ignoreVendorEvents && !p.isApple &&
      (v.usagePage = some UsagePage.appleVendorTopCase ||
        -- Vendor-defined (0xff00-0xffff)
        v.usagePage.any fun page => 0xff00 ≤ page && page ≤ 0xffff)) ||
    -- Nintendo's Pro Controller fires events without any input when connected via USB.
    (b.filterUselessEventsFromSpecificDevices && p.isNintendoProController &&
      p.transport = some "USB" &&
      (v.usagePage = some UsagePage.button ||
        (v.usagePage = some UsagePage.genericDesktop &&
          (v.usage = some Usage.GenericDesktop.x || v.usage = some Usage.GenericDesktop.y ||
            v.usage = some Usage.GenericDesktop.z || v.usage = some Usage.GenericDesktop.rz))))

/-- The handler up to the call of `make_entries`: the entries of a batch. -/
def makeEventQueueEntries (d : DeviceEntry) (b : Batch) : List Entry × DeviceEntry :=
  let (hidValues, lastTimeStamp) := makeHidValues b.values d.lastTimeStamp
  let hidValues := hidValues.filter fun v => !d.removed b v
  let (entries, lastDirection) :=
    makeEntries d.deviceProperties hidValues b.parameters d.lastDirection
  (entries, { d with lastTimeStamp := lastTimeStamp, lastDirection := lastDirection })

/-- The values of a batch that `make_entries` is called with. -/
def hidValues (d : DeviceEntry) (b : Batch) : List HidValue :=
  (makeHidValues b.values d.lastTimeStamp).1.filter fun v => !d.removed b v

/-- **The entries of a batch are in time order** unless a motion among them is overtaken. -/
theorem makeEventQueueEntries_timeOrder (d : DeviceEntry) (b : Batch) :
    ((d.makeEventQueueEntries b).1.Pairwise
        fun e e' => e.eventTimeStamp.timeStamp ≤ e'.eventTimeStamp.timeStamp) ↔
      (∀ before v after, d.hidValues b = before ++ v :: after →
        MakeEntries.EmitsMotion d.deviceProperties before v →
          ¬ MakeEntries.Overtaken d.deviceProperties d.lastDirection before) ∧
        ¬ MakeEntries.Overtaken d.deviceProperties d.lastDirection (d.hidValues b) := by
  have hvalues : (d.hidValues b).Pairwise fun v w => v.timeStamp ≤ w.timeStamp :=
    (pairwise_makeHidValues b.values d.lastTimeStamp).sublist List.filter_sublist
  have hordered := MakeEntries.inOrder_makeEntries_iff hvalues d.deviceProperties b.parameters
    d.lastDirection
  exact hordered

/-- The `values_arrived` handler: the device after the batch, and the entries that it signals by
`hid_queue_values_arrived`. -/
def valuesArrived (d : DeviceEntry) (b : Batch) : DeviceEntry × List Entry :=
  let (eventQueueEntries, d) := d.makeEventQueueEntries b
  -- The list with the released events is not used.
  let (_, pressed) := insertDeviceKeysAndPointingButtonsAreReleasedEvent
    d.deviceProperties.deviceId eventQueueEntries d.pressedKeysManager
  ({ d with pressedKeysManager := pressed }, eventQueueEntries)

/-- All entries that are signalled while the batches arrive. -/
def delivered (d : DeviceEntry) (batches : List Batch) : List Entry :=
  Machine.outputs valuesArrived d batches

/-- All entries that `make_entries` makes while the batches arrive. -/
def made (d : DeviceEntry) (batches : List Batch) : List Entry :=
  Machine.outputs (fun d b => ((d.valuesArrived b).1, (d.makeEventQueueEntries b).1)) d batches

end DeviceEntry

/-! ### What the insertion is for -/

/-- The entry releases a switch of the device, and it was the last one that was pressed. -/
def Releases (deviceId : DeviceId) (pressed : PressedKeysManager) (e : Entry) : Prop :=
  e.eventType = .keyUp ∧ e.event.getMomentarySwitchEvent.isSome ∧ pressed ≠ ∅ ∧
    updatePressedKeys deviceId pressed e = ∅

instance (deviceId : DeviceId) (pressed : PressedKeysManager) (e : Entry) :
    Decidable (Releases deviceId pressed e) :=
  inferInstanceAs (Decidable (_ ∧ _))

/-- The entries with a released event after each one that releases the last pressed switch. -/
def withReleased (deviceId : DeviceId) : List Entry → PressedKeysManager → List Entry
  | [], _ => []
  | e :: es, pressed =>
    let rest := withReleased deviceId es (updatePressedKeys deviceId pressed e)
    if Releases deviceId pressed e then e :: releasedEntry deviceId e.eventTimeStamp :: rest
    else e :: rest

/-- The switches pressed after the entries. -/
def pressedAfter (deviceId : DeviceId) (pressed : PressedKeysManager) (es : List Entry) :
    PressedKeysManager :=
  es.foldl (updatePressedKeys deviceId) pressed

theorem insertReleasedEntry_snd (deviceId : DeviceId) (pressed : PressedKeysManager) (e : Entry) :
    (insertReleasedEntry deviceId pressed e).2 = updatePressedKeys deviceId pressed e := by
  unfold insertReleasedEntry
  split_ifs <;> rfl

/-- The insertion follows the pressed switches. -/
theorem insertDeviceKeysAndPointingButtonsAreReleasedEvent_snd (deviceId : DeviceId)
    (es : List Entry) (pressed : PressedKeysManager) :
    (insertDeviceKeysAndPointingButtonsAreReleasedEvent deviceId es pressed).2 =
      pressedAfter deviceId pressed es := by
  induction es generalizing pressed with
  | nil => rfl
  | cons e es ih =>
      simp only [insertDeviceKeysAndPointingButtonsAreReleasedEvent, ih, insertReleasedEntry_snd]
      rfl

/-- **The list the insertion returns** is the expected one. -/
theorem insertDeviceKeysAndPointingButtonsAreReleasedEvent_fst (deviceId : DeviceId)
    (es : List Entry) (pressed : PressedKeysManager) (hes : ∀ e ∈ es, e.deviceId = deviceId) :
    (insertDeviceKeysAndPointingButtonsAreReleasedEvent deviceId es pressed).1 =
      withReleased deviceId es pressed := by
  induction es generalizing pressed with
  | nil => rfl
  | cons e es ih =>
      have he := hes e List.mem_cons_self
      simp only [insertDeviceKeysAndPointingButtonsAreReleasedEvent, withReleased,
        insertReleasedEntry_snd, ih _ fun e' he' => hes e' (List.mem_cons_of_mem e he')]
      by_cases hrel : Releases deviceId pressed e
      · have hout : (insertReleasedEntry deviceId pressed e).1 =
            [releasedEntry deviceId e.eventTimeStamp] := by
          simp [insertReleasedEntry, he, hrel.1, hrel.2.2.1, hrel.2.2.2]
        rw [hout, if_pos hrel]
        rfl
      · have hout : (insertReleasedEntry deviceId pressed e).1 = [] := by
          unfold insertReleasedEntry
          split_ifs with hcond
          · -- a key_up of something else than a switch leaves the pressed switches as they are
            have hcond : e.eventType = .keyUp ∧ pressed ≠ ∅ := by simpa [he] using hcond
            refine if_neg fun hempty => hrel ⟨hcond.1, ?_, hcond.2, hempty⟩
            cases hswitch : e.event.getMomentarySwitchEvent with
            | some switch => rfl
            | none =>
                have hkeep : updatePressedKeys deviceId pressed e = pressed := by
                  cases hevent : e.event <;>
                    simp_all [updatePressedKeys, Event.getMomentarySwitchEvent]
                exact absurd (hkeep.symm.trans hempty) hcond.2
          · rfl
        rw [hout, if_neg hrel]
        rfl

theorem length_le_length_withReleased (deviceId : DeviceId) (es : List Entry)
    (pressed : PressedKeysManager) : es.length ≤ (withReleased deviceId es pressed).length := by
  induction es generalizing pressed with
  | nil => exact Nat.zero_le _
  | cons e es ih =>
      have hle := ih (updatePressedKeys deviceId pressed e)
      unfold withReleased
      dsimp only
      split_ifs <;> simp only [List.length_cons] <;> omega

/-- Nothing is inserted exactly when no entry releases the last pressed switch. -/
theorem withReleased_eq_self_iff (deviceId : DeviceId) (es : List Entry)
    (pressed : PressedKeysManager) :
    withReleased deviceId es pressed = es ↔
      ∀ before e after, es = before ++ e :: after →
        ¬ Releases deviceId (pressedAfter deviceId pressed before) e := by
  induction es generalizing pressed with
  | nil =>
      refine ⟨fun _ before e after h => ?_, fun _ => rfl⟩
      simp at h
  | cons e es ih =>
      unfold withReleased
      dsimp only
      by_cases hrel : Releases deviceId pressed e
      · rw [if_pos hrel]
        constructor
        · intro heq
          have hlen := congrArg List.length heq
          have hle := length_le_length_withReleased deviceId es
            (updatePressedKeys deviceId pressed e)
          simp only [List.length_cons] at hlen
          omega
        · exact fun hnone => absurd hrel (hnone [] e es rfl)
      · rw [if_neg hrel, List.cons_eq_cons, and_iff_right rfl, ih]
        constructor
        · rintro hnone (_ | ⟨e', before⟩) e'' after heq
          · obtain ⟨rfl, rfl⟩ := List.cons_eq_cons.mp heq
            exact hrel
          · obtain ⟨rfl, rfl⟩ := List.cons_eq_cons.mp heq
            exact hnone before e'' after rfl
        · rintro hnone before e' after rfl
          exact hnone (e :: before) e' after rfl

/-! ### The run of a device -/

namespace DeviceEntry

theorem valuesArrived_deviceProperties (d : DeviceEntry) (b : Batch) :
    (d.valuesArrived b).1.deviceProperties = d.deviceProperties := rfl

theorem delivered_eq_made (d : DeviceEntry) (batches : List Batch) :
    d.delivered batches = d.made batches := by
  induction batches generalizing d with
  | nil => rfl
  | cons b bs ih =>
      have hrest := ih (d.valuesArrived b).1
      unfold delivered made at hrest ⊢
      rw [Machine.outputs_cons, Machine.outputs_cons, hrest]
      rfl

/-- The pressed keys manager follows the entries that are made, across the batches. -/
theorem pressedKeysManager_run (d : DeviceEntry) (batches : List Batch) :
    (Machine.run (fun d b => (d.valuesArrived b).1) d batches).pressedKeysManager =
      pressedAfter d.deviceProperties.deviceId d.pressedKeysManager (d.made batches) := by
  induction batches generalizing d with
  | nil => rfl
  | cons b bs ih =>
      rw [Machine.run_cons, ih, valuesArrived_deviceProperties]
      unfold made
      rw [Machine.outputs_cons, pressedAfter, pressedAfter, List.foldl_append]
      congr 1
      exact insertDeviceKeysAndPointingButtonsAreReleasedEvent_snd _ _ _

/-- **When the released events are delivered.**  The entries signalled by a device are the entries
made for it with a released event after each release of its last pressed switch if and only if
there is no such release: whenever a key_up arrives while switches are pressed, another switch
stays pressed. -/
theorem delivered_eq_withReleased_iff (p : DeviceProperties) (batches : List Batch) :
    delivered { deviceProperties := p } batches =
        withReleased p.deviceId (made { deviceProperties := p } batches) ∅ ↔
      ∀ before e after, made { deviceProperties := p } batches = before ++ e :: after →
        ¬ Releases p.deviceId (pressedAfter p.deviceId ∅ before) e := by
  rw [delivered_eq_made, eq_comm]
  exact withReleased_eq_self_iff p.deviceId _ ∅

/-- A keyboard on which the key `a` is pressed and released: no released event is delivered. -/
theorem delivered_ne_withReleased :
    ¬ ∀ (p : DeviceProperties) (batches : List Batch),
      delivered { deviceProperties := p } batches =
        withReleased p.deviceId (made { deviceProperties := p } batches) ∅ := by
  intro h
  have hkeyboard := h { deviceId := 1 }
    [{ values :=
        [⟨10, 1, some UsagePage.keyboardOrKeypad, some Usage.KeyboardOrKeypad.keyboardA⟩] },
      { values := [⟨20, 0, some UsagePage.keyboardOrKeypad,
        some Usage.KeyboardOrKeypad.keyboardA⟩] }]
  revert hkeyboard
  decide

end DeviceEntry

end Karabiner
