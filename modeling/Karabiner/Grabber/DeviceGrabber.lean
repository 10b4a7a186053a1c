import Karabiner.Grabber.Entry
import Mathlib.Data.Finset.Basic

/-!
# The merge point of the device grabber

`core/grabber/device_grabber.hpp`: the devices of the grabber and the queue their events are merged
into.  A value is forwarded if the device is seized and not disabled at its arrival.  Both flags
change on their own: the monitor of a device is opened, reopened and closed, and
`update_devices_disabled` runs whenever a device comes or goes or the configuration changes.

A device that is stopped posts `device_ungrabbed`, which releases what the device holds.  A device
that is disabled posts nothing: what it holds stays held, and since it stays seized, so that its
events are discarded, the release never arrives.  `heldWithinReported_iff` says exactly when
that happens.
-/

namespace Karabiner

/-- A device of the grabber: its `device_grabber_details::entry` with the open options of its
monitor. -/
structure GrabbedDevice where
  deviceProperties : DeviceProperties
  devicePropertiesPtr : DevicePropertiesPtr := 0
  /-- `device_properties` says so, or the configuration by `treat_as_built_in_keyboard`. -/
  determineIsBuiltInKeyboard : Bool := false
  /-- What the configuration says for this device, if it is not built in itself. -/
  isDisableBuiltInKeyboardIfExists : Bool := false
  disabled : Bool := false
  /-- `current_open_options_`: whether the monitor is open, and whether it seizes the device. -/
  currentOpenOptions : Option Bool := none
deriving DecidableEq

namespace GrabbedDevice

/-- `get_device_id`. -/
def deviceId (g : GrabbedDevice) : DeviceId := g.deviceProperties.deviceId

/-- `seized`. -/
def seized (g : GrabbedDevice) : Bool := g.currentOpenOptions = some true

/-- `set_disabled`. -/
def setDisabled (g : GrabbedDevice) (value : Bool) : GrabbedDevice :=
  if g.deviceProperties.isVirtualDevice then g else { g with disabled := value }

end GrabbedDevice

/-- `device_grabber`.  The merged queue is the list of all entries pushed to it.  `reported` is no
field of the source: it records which switches each device itself last reported as pressed. -/
structure DeviceGrabber where
  entries : List GrabbedDevice := []
  mergedInputEventQueue : List Entry := []
  reported : DeviceId → PressedKeysManager := fun _ => ∅

namespace DeviceGrabber

/-- What happens at the merge point, in the order of the dispatcher.  A device is matched once. -/
inductive Input
  | deviceMatched (device : GrabbedDevice)
  | deviceTerminated (deviceId : DeviceId) (now : AbsoluteTime)
  | coreConfigurationUpdated (determineIsBuiltInKeyboard : DeviceId → Bool)
      (isDisableBuiltInKeyboardIfExists : DeviceId → Bool)
  | monitorStarted (deviceId : DeviceId) (seize : Bool) (now : AbsoluteTime)
  | monitorStopped (deviceId : DeviceId) (now : AbsoluteTime)
  | valuesArrived (e : Entry) (now : AbsoluteTime)

/-- The device with the id. -/
def find (s : DeviceGrabber) (deviceId : DeviceId) : Option GrabbedDevice :=
  s.entries.find? fun g => g.deviceId = deviceId

/-- Change the monitor of one device. -/
def setOpenOptions (s : DeviceGrabber) (deviceId : DeviceId) (options : Option Bool) :
    DeviceGrabber :=
  { s with
    entries := s.entries.map fun g =>
      if g.deviceId = deviceId then { g with currentOpenOptions := options } else g }

/-- Push an entry to the merged queue. -/
def push (s : DeviceGrabber) (e : Entry) : DeviceGrabber :=
  { s with mergedInputEventQueue := s.mergedInputEventQueue ++ [e] }

/-- An entry the grabber posts on its own. -/
def virtualEntry (deviceId : DeviceId) (now : AbsoluteTime) (event : Event) : Entry where
  deviceId := deviceId
  eventTimeStamp := ⟨now, 0⟩
  event := event
  eventType := .single
  originalEvent := event
  state := .virtualEvent

/-- `post_device_grabbed_event`. -/
def postDeviceGrabbedEvent (s : DeviceGrabber) (deviceId : DeviceId) (now : AbsoluteTime)
    (properties : DevicePropertiesPtr) : DeviceGrabber :=
  s.push (virtualEntry deviceId now (.deviceGrabbed properties))

/-- `post_device_ungrabbed_event`. -/
def postDeviceUngrabbedEvent (s : DeviceGrabber) (deviceId : DeviceId) (now : AbsoluteTime) :
    DeviceGrabber :=
  s.push (virtualEntry deviceId now .deviceUngrabbed)

/-- `need_to_disable_built_in_keyboard`. -/
def needToDisableBuiltInKeyboard (s : DeviceGrabber) : Bool :=
  s.entries.any fun g => g.isDisableBuiltInKeyboardIfExists

/-- `update_devices_disabled`. -/
def updateDevicesDisabled (s : DeviceGrabber) : DeviceGrabber :=
  { s with
    entries := s.entries.map fun g =>
      g.setDisabled (g.determineIsBuiltInKeyboard && s.needToDisableBuiltInKeyboard) }

/-- `iokit_hid_queue_value_monitor::stop` and the `stopped` handler. -/
def monitorStop (s : DeviceGrabber) (deviceId : DeviceId) (now : AbsoluteTime) : DeviceGrabber :=
  match s.find deviceId with
  | none => s
  | some g =>
    match g.currentOpenOptions with
    | none => s
    | some _ => (s.setOpenOptions deviceId none).postDeviceUngrabbedEvent deviceId now

/-- `iokit_hid_queue_value_monitor::start` and the `started` handler.  A monitor that is open with
other options is stopped first. -/
def monitorStart (s : DeviceGrabber) (deviceId : DeviceId) (seize : Bool) (now : AbsoluteTime) :
    DeviceGrabber :=
  match s.find deviceId with
  | none => s
  | some g =>
    if g.currentOpenOptions = some seize then s
    else
      ((s.monitorStop deviceId now).setOpenOptions deviceId (some seize)).postDeviceGrabbedEvent
        deviceId now g.devicePropertiesPtr

/-- The entry that `values_arrived` forwards, with the fields it copies. -/
def forwarded (e : Entry) : Entry :=
  ⟨e.deviceId, e.eventTimeStamp, e.event, e.eventType, e.originalEvent, e.state, false, .valid⟩

/-- The entry is what its device reports. -/
def report (s : DeviceGrabber) (e : Entry) : DeviceGrabber :=
  { s with
    reported := Function.update s.reported e.deviceId
      (updatePressedKeys e.deviceId (s.reported e.deviceId) e) }

/-- `values_arrived` for one entry of a batch.  Of the virtual keyboard only the caps lock state is
of interest. -/
def valuesArrived (s : DeviceGrabber) (e : Entry) (now : AbsoluteTime) : DeviceGrabber :=
  let s := s.report e
  match s.find e.deviceId with
  | none => s
  | some g =>
    if g.deviceProperties.isVirtualDevice then
      match e.event with
      | .capsLockStateChanged state =>
        s.push (virtualEntry 0 now (.capsLockStateChanged (if state ≠ 0 then 1 else 0)))
      | _ => s
    else if !g.disabled && g.seized then s.push (forwarded e)
    else s

/-- The `device_matched` handler, for a device that is not there yet. -/
def deviceMatched (s : DeviceGrabber) (device : GrabbedDevice) : DeviceGrabber :=
  match s.find device.deviceId with
  | some _ => s
  | none =>
    { s with
      entries := s.entries ++
        [{ device with disabled := false, currentOpenOptions := none }] }.updateDevicesDisabled

/-- The `device_terminated` handler. -/
def deviceTerminated (s : DeviceGrabber) (deviceId : DeviceId) (now : AbsoluteTime) :
    DeviceGrabber :=
  ({ s with
    entries := s.entries.filter fun g => g.deviceId ≠ deviceId }.postDeviceUngrabbedEvent
      deviceId now).updateDevicesDisabled

/-- What a configuration says about a device. -/
def setSettings (determineIsBuiltInKeyboard isDisableBuiltInKeyboardIfExists : DeviceId → Bool)
    (g : GrabbedDevice) : GrabbedDevice :=
  { g with
    determineIsBuiltInKeyboard := determineIsBuiltInKeyboard g.deviceId
    isDisableBuiltInKeyboardIfExists := isDisableBuiltInKeyboardIfExists g.deviceId }

/-- One event at the merge point. -/
def step (s : DeviceGrabber) : Input → DeviceGrabber
  | .deviceMatched device => s.deviceMatched device
  | .deviceTerminated deviceId now => s.deviceTerminated deviceId now
  | .coreConfigurationUpdated determineIsBuiltInKeyboard isDisableBuiltInKeyboardIfExists =>
    { s with
      entries := s.entries.map (setSettings determineIsBuiltInKeyboard
        isDisableBuiltInKeyboardIfExists) : DeviceGrabber }.updateDevicesDisabled
  | .monitorStarted deviceId seize now => s.monitorStart deviceId seize now
  | .monitorStopped deviceId now => s.monitorStop deviceId now
  | .valuesArrived e now => s.valuesArrived e now

/-! ### Held switches -/

/-- What an entry of the merged queue does to the switches that a device holds. -/
def updateHeld (deviceId : DeviceId) (held : PressedKeysManager) (e : Entry) :
    PressedKeysManager :=
  if e.deviceId = deviceId ∧ e.event = .deviceUngrabbed then ∅
  else updatePressedKeys deviceId held e

/-- The switches of the device that are held at the merge point: a key_down was pushed, and since
then neither a key_up of the switch nor a `device_ungrabbed` of the device. -/
def held (s : DeviceGrabber) (deviceId : DeviceId) : PressedKeysManager :=
  s.mergedInputEventQueue.foldl (updateHeld deviceId) ∅

/-- Every switch that is held at the merge point is reported as pressed by its device. -/
def HeldWithinReported (s : DeviceGrabber) : Prop :=
  ∀ deviceId, s.held deviceId ⊆ s.reported deviceId

/-- The entry is a release of a switch that its device holds at the merge point. -/
def ReleasesHeld (s : DeviceGrabber) (e : Entry) : Prop :=
  e.eventType = .keyUp ∧
    ∃ switch ∈ s.held e.deviceId, e.event = .momentarySwitchEvent switch

/-- The device is disabled, but still seized. -/
def DisabledWhileSeized (s : DeviceGrabber) (deviceId : DeviceId) : Prop :=
  ∃ g, s.find deviceId = some g ∧ g.disabled = true ∧ g.seized = true

/-- No release of a held switch arrives while its device is disabled and seized. -/
def ReleasesInTime (s : DeviceGrabber) : Input → Prop
  | .valuesArrived e _ => s.ReleasesHeld e → ¬ s.DisabledWhileSeized e.deviceId
  | _ => True

/-! ### Lookups -/

/-- Changing the devices one by one changes the device that is found. -/
theorem find_map (s : DeviceGrabber) {f : GrabbedDevice → GrabbedDevice}
    (hf : ∀ g, (f g).deviceId = g.deviceId) (deviceId : DeviceId) :
    { s with entries := s.entries.map f : DeviceGrabber }.find deviceId =
      (s.find deviceId).map f := by
  unfold find
  rw [List.find?_map]
  congr 2
  funext g
  simp [hf]

/-- The properties of a device stay when it is disabled. -/
theorem setDisabled_deviceProperties (g : GrabbedDevice) (value : Bool) :
    (g.setDisabled value).deviceProperties = g.deviceProperties := by
  unfold GrabbedDevice.setDisabled
  split_ifs <;> rfl

theorem setDisabled_seized (g : GrabbedDevice) (value : Bool) :
    (g.setDisabled value).seized = g.seized := by
  unfold GrabbedDevice.setDisabled
  split_ifs <;> rfl

@[simp] theorem held_push (s : DeviceGrabber) (e : Entry) (deviceId : DeviceId) :
    (s.push e).held deviceId = updateHeld deviceId (s.held deviceId) e := by
  simp [held, push]

/-- Of the virtual entries only that of an ungrabbed device changes what is held. -/
theorem updateHeld_virtualEntry (deviceId d : DeviceId) (now : AbsoluteTime) (event : Event)
    (held : PressedKeysManager) :
    updateHeld deviceId held (virtualEntry d now event) =
      if d = deviceId ∧ event = .deviceUngrabbed then ∅ else held := by
  unfold updateHeld updatePressedKeys virtualEntry
  by_cases hd : d = deviceId <;> simp [hd]

/-- A device with more keys pressed has more pressed after an entry. -/
theorem updatePressedKeys_mono (deviceId : DeviceId) {a b : PressedKeysManager} (h : a ⊆ b)
    (e : Entry) : updatePressedKeys deviceId a e ⊆ updatePressedKeys deviceId b e := by
  unfold updatePressedKeys
  split_ifs
  · split
    · exact Finset.insert_subset_insert _ h
    · exact Finset.erase_subset_erase _ h
    · exact h
  · exact h

/-! ### Where switches can be held -/

/-- Only a physical device that is seized holds switches. -/
def HeldOnlyWhileSeized (s : DeviceGrabber) : Prop :=
  ∀ deviceId, s.held deviceId ≠ ∅ → ∃ g, s.find deviceId = some g ∧ g.seized = true ∧
    g.deviceProperties.isVirtualDevice = false

/-- Changing flags of the devices that are not about seizing keeps the invariant. -/
theorem HeldOnlyWhileSeized.map {s : DeviceGrabber} (h : s.HeldOnlyWhileSeized)
    {f : GrabbedDevice → GrabbedDevice} (hf : ∀ g, (f g).deviceProperties = g.deviceProperties)
    (hseized : ∀ g, (f g).seized = g.seized) :
    { s with entries := s.entries.map f : DeviceGrabber }.HeldOnlyWhileSeized := by
  intro deviceId hheld
  obtain ⟨g, hg, hs, hv⟩ := h deviceId hheld
  refine ⟨f g, ?_, by rw [hseized, hs], by rw [hf, hv]⟩
  rw [find_map s (fun g => by unfold GrabbedDevice.deviceId; rw [hf]), hg]
  rfl

/-- Disabling devices does not change what is seized. -/
theorem HeldOnlyWhileSeized.updateDevicesDisabled {s : DeviceGrabber}
    (h : s.HeldOnlyWhileSeized) : s.updateDevicesDisabled.HeldOnlyWhileSeized :=
  h.map (fun g => setDisabled_deviceProperties g _) fun g => setDisabled_seized g _

/-- A device that holds nothing may be opened or closed. -/
theorem HeldOnlyWhileSeized.setOpenOptions {s : DeviceGrabber} (h : s.HeldOnlyWhileSeized)
    {deviceId : DeviceId} (hheld : s.held deviceId = ∅) (options : Option Bool) :
    (s.setOpenOptions deviceId options).HeldOnlyWhileSeized := by
  intro d hd
  obtain ⟨g, hg, hs, hv⟩ := h d hd
  have hne : g.deviceId ≠ deviceId := by
    have hid : g.deviceId = d := by simpa using List.find?_some hg
    rintro rfl
    exact hd (hid ▸ hheld)
  refine ⟨g, ?_, hs, hv⟩
  unfold DeviceGrabber.setOpenOptions
  rw [find_map s (fun g => by split_ifs <;> rfl), hg, Option.map_some, if_neg hne]

/-- An entry that the grabber posts releases switches or changes nothing. -/
theorem HeldOnlyWhileSeized.push_virtualEntry {s : DeviceGrabber} (h : s.HeldOnlyWhileSeized)
    (d : DeviceId) (now : AbsoluteTime) (event : Event) :
    (s.push (virtualEntry d now event)).HeldOnlyWhileSeized := by
  intro deviceId hheld
  rw [held_push, updateHeld_virtualEntry] at hheld
  split_ifs at hheld
  · exact absurd rfl hheld
  · exact h deviceId hheld

/-- A monitor that stops ungrabs its device, which then holds nothing. -/
theorem HeldOnlyWhileSeized.monitorStop {s : DeviceGrabber} (h : s.HeldOnlyWhileSeized)
    (deviceId : DeviceId) (now : AbsoluteTime) :
    (s.monitorStop deviceId now).HeldOnlyWhileSeized := by
  unfold DeviceGrabber.monitorStop
  cases hg : s.find deviceId with
  | none => exact h
  | some g =>
      cases ho : g.currentOpenOptions with
      | none => simpa [ho] using h
      | some seize =>
          simp only [ho]
          intro d hd
          unfold postDeviceUngrabbedEvent at hd
          rw [held_push, updateHeld_virtualEntry] at hd
          split_ifs at hd with hsame
          · exact absurd rfl hd
          · obtain ⟨g', hg', hs, hv⟩ := h d hd
            have hid : g'.deviceId = d := by simpa using List.find?_some hg'
            have hne : g'.deviceId ≠ deviceId := fun heq => hsame ⟨heq.symm.trans hid, rfl⟩
            refine ⟨g', ?_, hs, hv⟩
            change (s.setOpenOptions deviceId none).find d = some g'
            unfold DeviceGrabber.setOpenOptions
            rw [find_map s (fun g => by split_ifs <;> rfl), hg', Option.map_some, if_neg hne]

/-- A device whose monitor is stopped holds nothing. -/
theorem held_monitorStop {s : DeviceGrabber} (h : s.HeldOnlyWhileSeized) {deviceId : DeviceId}
    {g : GrabbedDevice} (hg : s.find deviceId = some g) (now : AbsoluteTime) :
    (s.monitorStop deviceId now).held deviceId = ∅ := by
  unfold monitorStop
  rw [hg]
  cases ho : g.currentOpenOptions with
  | none =>
      by_contra hheld
      obtain ⟨g', hg', hs, -⟩ := h deviceId (by simpa [ho] using hheld)
      obtain rfl : g = g' := Option.some.inj (hg.symm.trans hg')
      simp [GrabbedDevice.seized, ho] at hs
  | some seize =>
      simp only [ho]
      unfold postDeviceUngrabbedEvent
      rw [held_push, updateHeld_virtualEntry, if_pos ⟨rfl, rfl⟩]

/-- A monitor that starts says whether the device is seized. -/
theorem HeldOnlyWhileSeized.monitorStart {s : DeviceGrabber} (h : s.HeldOnlyWhileSeized)
    (deviceId : DeviceId) (seize : Bool) (now : AbsoluteTime) :
    (s.monitorStart deviceId seize now).HeldOnlyWhileSeized := by
  unfold DeviceGrabber.monitorStart
  cases hg : s.find deviceId with
  | none => exact h
  | some g =>
      dsimp only
      split_ifs
      · exact h
      · exact ((h.monitorStop deviceId now).setOpenOptions (held_monitorStop h hg now)
          _).push_virtualEntry _ _ _

/-- Values are merged only from a device that is seized. -/
theorem HeldOnlyWhileSeized.valuesArrived {s : DeviceGrabber} (h : s.HeldOnlyWhileSeized)
    (e : Entry) (now : AbsoluteTime) : (s.valuesArrived e now).HeldOnlyWhileSeized := by
  have hreport : (s.report e).HeldOnlyWhileSeized := h
  unfold DeviceGrabber.valuesArrived
  dsimp only
  cases hg : (s.report e).find e.deviceId with
  | none => exact hreport
  | some g =>
      dsimp only
      split_ifs with hv hforward
      · split
        · exact hreport.push_virtualEntry _ _ _
        · exact hreport
      · -- the entry is forwarded for a device that is seized
        intro d hd
        by_cases hsame : e.deviceId = d
        · subst hsame
          simp only [Bool.and_eq_true] at hforward
          exact ⟨g, hg, hforward.2, by simpa using hv⟩
        · rw [held_push] at hd
          have hkeep : updateHeld d ((s.report e).held d) (forwarded e) = (s.report e).held d := by
            simp [updateHeld, updatePressedKeys, forwarded, hsame]
          rw [hkeep] at hd
          exact hreport d hd
      · exact hreport

/-- Every step keeps that only seized devices hold switches. -/
theorem HeldOnlyWhileSeized.step {s : DeviceGrabber} (h : s.HeldOnlyWhileSeized) (i : Input) :
    (s.step i).HeldOnlyWhileSeized := by
  cases i with
  | deviceMatched device =>
      simp only [DeviceGrabber.step, DeviceGrabber.deviceMatched]
      cases hg : s.find device.deviceId with
      | some g => exact h
      | none =>
          refine HeldOnlyWhileSeized.updateDevicesDisabled fun d hd => ?_
          obtain ⟨g, hg', hs, hv⟩ := h d hd
          refine ⟨g, ?_, hs, hv⟩
          unfold find at hg' ⊢
          rw [List.find?_append, hg']
          rfl
  | deviceTerminated deviceId now =>
      refine HeldOnlyWhileSeized.updateDevicesDisabled fun d hd => ?_
      unfold postDeviceUngrabbedEvent at hd
      rw [held_push, updateHeld_virtualEntry] at hd
      split_ifs at hd with hsame
      · exact absurd rfl hd
      · obtain ⟨g, hg, hs, hv⟩ := h d hd
        refine ⟨g, ?_, hs, hv⟩
        change ({ s with
          entries := s.entries.filter fun g => g.deviceId ≠ deviceId } : DeviceGrabber).find d = _
        have hne : d ≠ deviceId := fun heq => hsame ⟨heq.symm, rfl⟩
        unfold find at hg ⊢
        rw [List.find?_filter, ← hg]
        congr 1
        funext g
        by_cases hgd : g.deviceId = d <;> simp [hgd, hne]
  | coreConfigurationUpdated determine isDisable =>
      exact (h.map (f := setSettings determine isDisable) (fun _ => rfl)
        fun _ => rfl).updateDevicesDisabled
  | monitorStarted deviceId seize now => exact h.monitorStart deviceId seize now
  | monitorStopped deviceId now => exact h.monitorStop deviceId now
  | valuesArrived e now => exact h.valuesArrived e now

/-! ### Held switches are reported as pressed -/

/-- Posting an entry of the grabber itself does not make a device hold more. -/
theorem HeldWithinReported.push_virtualEntry {s : DeviceGrabber} (h : s.HeldWithinReported)
    (d : DeviceId) (now : AbsoluteTime) (event : Event) :
    (s.push (virtualEntry d now event)).HeldWithinReported := by
  intro deviceId
  rw [held_push, updateHeld_virtualEntry]
  split_ifs
  · exact Finset.empty_subset _
  · exact h deviceId

/-- A stop releases what is held. -/
theorem HeldWithinReported.monitorStop {s : DeviceGrabber} (h : s.HeldWithinReported)
    (deviceId : DeviceId) (now : AbsoluteTime) :
    (s.monitorStop deviceId now).HeldWithinReported := by
  unfold DeviceGrabber.monitorStop
  split
  · exact h
  · split
    · exact h
    · exact HeldWithinReported.push_virtualEntry (s := s.setOpenOptions deviceId none) h _ _ _

/-- A monitor that starts holds nothing new. -/
theorem HeldWithinReported.monitorStart {s : DeviceGrabber} (h : s.HeldWithinReported)
    (deviceId : DeviceId) (seize : Bool) (now : AbsoluteTime) :
    (s.monitorStart deviceId seize now).HeldWithinReported := by
  unfold DeviceGrabber.monitorStart
  split
  · exact h
  · split_ifs
    · exact h
    · exact HeldWithinReported.push_virtualEntry
        (s := (s.monitorStop deviceId now).setOpenOptions deviceId (some seize))
        (h.monitorStop deviceId now) _ _ _

/-- Forwarding what the device reports keeps the two in step. -/
theorem heldWithinReported_forwarded {s : DeviceGrabber} (h : s.HeldWithinReported) (e : Entry) :
    ((s.report e).push (forwarded e)).HeldWithinReported := by
  intro d
  rw [held_push]
  change updateHeld d (s.held d) (forwarded e) ⊆
    Function.update s.reported e.deviceId (updatePressedKeys e.deviceId (s.reported e.deviceId) e) d
  by_cases hd : d = e.deviceId
  · subst hd
    rw [Function.update_self]
    unfold updateHeld
    split_ifs
    · exact Finset.empty_subset _
    · exact updatePressedKeys_mono _ (h _) e
  · rw [Function.update_of_ne hd]
    have hkeep : updateHeld d (s.held d) (forwarded e) = s.held d := by
      simp [updateHeld, updatePressedKeys, forwarded, Ne.symm hd]
    rw [hkeep]
    exact h d

/-- A value that is not forwarded is harmless unless it is the release of a held switch. -/
theorem heldWithinReported_report_iff {s : DeviceGrabber} (h : s.HeldWithinReported) (e : Entry) :
    (s.report e).HeldWithinReported ↔ ¬ s.ReleasesHeld e := by
  constructor
  · rintro hreport ⟨htype, switch, hheld, hevent⟩
    have hmem := hreport e.deviceId hheld
    simp [report, updatePressedKeys, htype, hevent] at hmem
  · intro hrel d
    change s.held d ⊆ Function.update s.reported e.deviceId
      (updatePressedKeys e.deviceId (s.reported e.deviceId) e) d
    by_cases hd : d = e.deviceId
    · subst hd
      rw [Function.update_self]
      unfold updatePressedKeys
      rw [if_pos rfl]
      split
      · exact (h _).trans (Finset.subset_insert _ _)
      · rename_i switch htype hevent
        exact Finset.subset_erase.mpr ⟨h _, fun hheld => hrel ⟨htype, switch, hheld, hevent⟩⟩
      · exact h _
    · rw [Function.update_of_ne hd]
      exact h d

/-- **One step.**  From a state in which only seized devices hold switches and held switches are
reported as pressed, a step keeps the latter exactly when no release is lost in it. -/
theorem heldWithinReported_step_iff {s : DeviceGrabber} (hseized : s.HeldOnlyWhileSeized)
    (h : s.HeldWithinReported) (i : Input) :
    (s.step i).HeldWithinReported ↔ s.ReleasesInTime i := by
  cases i with
  | deviceMatched device =>
      refine iff_of_true ?_ trivial
      simp only [step, deviceMatched]
      split <;> exact h
  | deviceTerminated deviceId now =>
      refine iff_of_true ?_ trivial
      exact HeldWithinReported.push_virtualEntry
        (s := { s with entries := s.entries.filter fun g => g.deviceId ≠ deviceId }) h _ _ _
  | coreConfigurationUpdated determine isDisable => exact iff_of_true h trivial
  | monitorStarted deviceId seize now => exact iff_of_true (h.monitorStart _ _ _) trivial
  | monitorStopped deviceId now => exact iff_of_true (h.monitorStop _ _) trivial
  | valuesArrived e now =>
      have hholds : ∀ g, s.find e.deviceId = some g → s.ReleasesHeld e →
          g.seized = true ∧ g.deviceProperties.isVirtualDevice = false := by
        rintro g hg ⟨-, switch, hheld, -⟩
        obtain ⟨g', hg', hs, hv⟩ := hseized e.deviceId (Finset.ne_empty_of_mem hheld)
        obtain rfl : g = g' := Option.some.inj (hg.symm.trans hg')
        exact ⟨hs, hv⟩
      simp only [step, valuesArrived, ReleasesInTime]
      cases hg : s.find e.deviceId with
      | none =>
          have hnone : ¬ s.ReleasesHeld e := by
            rintro ⟨-, switch, hheld, -⟩
            obtain ⟨g', hg', -⟩ := hseized e.deviceId (Finset.ne_empty_of_mem hheld)
            rw [hg] at hg'
            cases hg'
          have hfind : (s.report e).find e.deviceId = none := hg
          rw [hfind]
          exact iff_of_true ((heldWithinReported_report_iff h e).mpr hnone)
            fun hrel => absurd hrel hnone
      | some g =>
          have hfind : (s.report e).find e.deviceId = some g := hg
          rw [hfind]
          dsimp only
          split_ifs with hv hforward
          · -- a virtual device holds nothing
            have hnone : ¬ s.ReleasesHeld e := fun hrel => by
              simp [(hholds g hg hrel).2] at hv
            have hreport := (heldWithinReported_report_iff h e).mpr hnone
            refine iff_of_true ?_ fun hrel => absurd hrel hnone
            split
            · exact hreport.push_virtualEntry _ _ _
            · exact hreport
          · -- forwarded: the device is not disabled
            refine iff_of_true (heldWithinReported_forwarded h e) fun _ hdis => ?_
            obtain ⟨g', hg', hd, -⟩ := hdis
            obtain rfl : g = g' := Option.some.inj (hg.symm.trans hg')
            simp [hd] at hforward
          · rw [heldWithinReported_report_iff h e]
            refine ⟨fun hnone hrel => absurd hrel hnone, fun htime hrel => htime hrel ?_⟩
            obtain ⟨hs, -⟩ := hholds g hg hrel
            refine ⟨g, hg, ?_, hs⟩
            simpa [hs] using hforward

/-- **When there are no phantom held switches.**  In a run from a grabber without devices, the
switches held at the merge point are at every moment among those that their devices last reported
as pressed, if and only if no release of a held switch arrives while its device is disabled and
seized. -/
theorem heldWithinReported_iff (inputs : List Input) :
    (∀ before after, inputs = before ++ after →
        (Machine.run step {} before).HeldWithinReported) ↔
      Machine.Steps step ReleasesInTime {} inputs :=
  @Machine.steps_iff _ _ _ _ _ HeldOnlyWhileSeized (fun _ i hside _ => hside.step i)
    (fun _ i hside h => heldWithinReported_step_iff hside h i)
    _ (fun _ hheld => absurd rfl hheld) (fun _ => Finset.empty_subset _) inputs

/-- The key `a` of the built-in keyboard is held when a keyboard that disables the built-in one is
connected, and released after that. -/
def connectWhileHeld : List Input :=
  let a : Event := .momentarySwitchEvent
    ⟨⟨UsagePage.keyboardOrKeypad, Usage.KeyboardOrKeypad.keyboardA⟩⟩
  [.deviceMatched { deviceProperties := { deviceId := 1 }, determineIsBuiltInKeyboard := true },
    .monitorStarted 1 true 10,
    .valuesArrived ⟨1, ⟨20, 0⟩, a, .keyDown, a, .original, false, .valid⟩ 20,
    .deviceMatched
      { deviceProperties := { deviceId := 2 }, isDisableBuiltInKeyboardIfExists := true },
    .valuesArrived ⟨1, ⟨30, 0⟩, a, .keyUp, a, .original, false, .valid⟩ 30]

/-- The release is dropped without a `device_ungrabbed`: the key stays held. -/
theorem not_heldWithinReported_connectWhileHeld :
    ¬ ∀ inputs, (Machine.run step {} inputs).HeldWithinReported := by
  intro h
  have hkeyboard := h connectWhileHeld 1
  revert hkeyboard
  decide

end DeviceGrabber

end Karabiner
