import Karabiner.Devices.HidQueueValueMonitor
import Karabiner.Grabber.ProbableStuckEventsManager
import Karabiner.Manipulator.Conditions

/-!
# Which devices are grabbed

`core/grabber/device_grabber.hpp`: whether a device is seized, only observed or closed depends on
the configuration, on the virtual devices, on the other devices, on whether the system sleeps and on
switches that seem to be stuck.  Whenever one of these changes, `async_grab_devices` puts a function
into the queue of the dispatcher that asks the monitor of every device anew.  The monitors work in
another thread.  A function of the dispatcher is one step, and so is a step of a monitor.

* `disabled_run` — **which devices are disabled**, in every reachable state.
* `upcoming_iff` — the requests are up to date, or about to be, all along a run exactly when no step
  changes a decision silently.  Three steps may do so: `stop`, a change of the manipulators without
  `async_grab_devices`, and a device that is seized while a switch of it is stuck.
* `openedWith_eq_decided` — **at rest, every device is open as the grabber decides**.
* `decided_eq_some_true_iff` — when it decides to seize a device.
-/

namespace Karabiner

open CoreConfiguration (DeviceIdentifiers NaturalSort)

/-! ### Devices -/

/-- `grabbable_state::state`, as far as `make_grabbable_state` returns it. -/
inductive GrabbableState
  | grabbable
  | ungrabbableTemporarily
  | ungrabbablePermanently
deriving DecidableEq, Repr

/-- `device_grabber_details::entry`, what decides whether it is grabbed. -/
structure GrabberEntry where
  deviceProperties : Devices.DeviceProperties
  disabled : Bool := false
  probableStuckEventsManager : ProbableStuckEventsManager := {}
  hidQueueValueMonitor : HidQueueValueMonitor := {}

namespace GrabberEntry

/-- `get_device_id`. -/
def deviceId (e : GrabberEntry) : UInt64 := e.deviceProperties.deviceId

/-- `device_identifiers::get_is_virtual_device`. -/
def isVirtualDevice (e : GrabberEntry) : Bool :=
  e.deviceProperties.deviceIdentifiers.isVirtualDevice

/-- `set_disabled`. -/
def setDisabled (value : Bool) (e : GrabberEntry) : GrabberEntry :=
  if e.isVirtualDevice then e else { e with disabled := value }

/-- `needs_to_observe_device`. -/
def needsToObserveDevice (e : GrabberEntry) : Bool := e.isVirtualDevice

section

variable [NlohmannJson] [NaturalSort]

/-- `is_disable_built_in_keyboard_if_exists`. -/
def isDisableBuiltInKeyboardIfExists (c : CoreConfiguration) (e : GrabberEntry) : Bool :=
  if e.isVirtualDevice then false
  else if e.deviceProperties.isBuiltInKeyboard || e.deviceProperties.isBuiltInPointingDevice ||
      e.deviceProperties.isBuiltInTouchBar then false
  else c.deviceSetting e.deviceProperties.deviceIdentifiers .disableBuiltInKeyboardIfExists

/-- `needs_to_seize_device`. -/
def needsToSeizeDevice (c : CoreConfiguration) (e : GrabberEntry) : Bool :=
  if e.isVirtualDevice then false
  else if e.disabled then true
  else !c.deviceSetting e.deviceProperties.deviceIdentifiers .ignore

/-- `async_start_queue_value_monitor`. -/
def asyncStartQueueValueMonitor (c : CoreConfiguration) (state : GrabbableState)
    (e : GrabberEntry) : GrabberEntry :=
  if e.isVirtualDevice then
    { e with hidQueueValueMonitor := e.hidQueueValueMonitor.asyncStart false }
  else
    match state with
    | .grabbable =>
      { e with
        hidQueueValueMonitor := e.hidQueueValueMonitor.asyncStart (e.needsToSeizeDevice c) }
    | .ungrabbableTemporarily =>
      { e with hidQueueValueMonitor := e.hidQueueValueMonitor.asyncStart false }
    | .ungrabbablePermanently => e

end

/-- `async_stop_queue_value_monitor`. -/
def asyncStopQueueValueMonitor (e : GrabberEntry) : GrabberEntry :=
  { e with hidQueueValueMonitor := e.hidQueueValueMonitor.asyncStop }

end GrabberEntry

/-! ### The grabber -/

/-- The functions that are waiting in the queue of the dispatcher. -/
inductive GrabJob
  /-- The function of `async_grab_devices`. -/
  | grabDevices
  /-- The function of `async_ungrab_devices`. -/
  | ungrabDevices
deriving DecidableEq, Repr

/-- `device_grabber`, what decides which devices are grabbed. -/
structure Grabbing where
  coreConfiguration : CoreConfiguration
  entries : List GrabberEntry := []
  systemSleeping : Bool := false
  virtualHidKeyboardReady : Bool := false
  virtualHidPointingReady : Bool := false
  /-- `manipulator_managers_connector::needs_virtual_hid_pointing`. -/
  needsVirtualHidPointing : Bool := false
  pending : List GrabJob := []

namespace Grabbing

/-- What happens in the dispatcher, and in the threads of the monitors. -/
inductive Input
  /-- `connected`. -/
  | connected
  | virtualHidKeyboardReady (ready : Bool)
  | virtualHidPointingReady (ready : Bool)
  | deviceMatched (deviceProperties : Devices.DeviceProperties)
  | deviceTerminated (deviceId : UInt64)
  | setSystemSleeping (value : Bool)
  /-- `core_configuration_updated`, after which the manipulators are other ones. -/
  | coreConfigurationUpdated (coreConfiguration : CoreConfiguration)
      (needsVirtualHidPointing : Bool)
  /-- The manipulators change otherwise: they are removed once they are no longer active, and
  `async_set_system_preferences_properties` makes those of the function keys anew. -/
  | manipulatorsChanged (needsVirtualHidPointing : Bool)
  /-- The switches of `values_arrived`. -/
  | valuesArrived (deviceId : UInt64) (switches : List (MomentarySwitchEvent × EventType))
  /-- The handler of `started`. -/
  | monitorStarted (deviceId : UInt64)
  /-- A step of a monitor. -/
  | monitor (deviceId : UInt64) (i : HidQueueValueMonitor.Input)
  /-- The next function in the queue of the dispatcher. -/
  | dispatch
  | stop

/-- Change a device. -/
def modify (deviceId : UInt64) (f : GrabberEntry → GrabberEntry) (s : Grabbing) : Grabbing :=
  { s with entries := s.entries.map fun e => if e.deviceId = deviceId then f e else e }

/-- `async_grab_devices`. -/
def asyncGrabDevices (s : Grabbing) : Grabbing := { s with pending := s.pending ++ [.grabDevices] }

/-- `async_ungrab_devices`. -/
def asyncUngrabDevices (s : Grabbing) : Grabbing :=
  { s with pending := s.pending ++ [.ungrabDevices] }

section

variable [NlohmannJson] [NaturalSort]

/-- `need_to_disable_built_in_keyboard`. -/
def needToDisableBuiltInKeyboard (s : Grabbing) : Bool :=
  s.entries.any (GrabberEntry.isDisableBuiltInKeyboardIfExists s.coreConfiguration)

/-- `update_devices_disabled`. -/
def updateDevicesDisabled (s : Grabbing) : Grabbing :=
  { s with
    entries := s.entries.map fun e => e.setDisabled
      (determineIsBuiltInKeyboard s.coreConfiguration e.deviceProperties &&
        s.needToDisableBuiltInKeyboard) }

/-- `needs_prepare_virtual_hid_pointing_device`. -/
def needsPrepareVirtualHidPointingDevice (s : Grabbing) : Bool :=
  (s.entries.any fun e => e.needsToSeizeDevice s.coreConfiguration &&
    (e.deviceProperties.deviceIdentifiers.isPointingDevice ||
      e.deviceProperties.deviceIdentifiers.isGamePad)) || s.needsVirtualHidPointing

/-- `make_grabbable_state`. -/
def makeGrabbableState (s : Grabbing) (e : GrabberEntry) : GrabbableState :=
  if e.needsToObserveDevice then .grabbable
  else if !e.needsToSeizeDevice s.coreConfiguration then .ungrabbablePermanently
  else if s.systemSleeping then .ungrabbableTemporarily
  else if !s.virtualHidKeyboardReady then .ungrabbableTemporarily
  else if s.needsPrepareVirtualHidPointingDevice && !s.virtualHidPointingReady then
    .ungrabbableTemporarily
  else if e.probableStuckEventsManager.findProbableStuckEvent.isSome then .ungrabbableTemporarily
  else .grabbable

/-- `grab_device`. -/
def grabDevice (s : Grabbing) (e : GrabberEntry) : GrabberEntry :=
  match s.makeGrabbableState e with
  | .grabbable => e.asyncStartQueueValueMonitor s.coreConfiguration .grabbable
  | .ungrabbableTemporarily =>
    e.asyncStartQueueValueMonitor s.coreConfiguration .ungrabbableTemporarily
  | .ungrabbablePermanently => e.asyncStopQueueValueMonitor

omit [NlohmannJson] [NaturalSort] in
/-- The loop of `values_arrived` over the switches: the device, and whether it is to be grabbed
again. -/
def updateStuckEvents (e : GrabberEntry) (switches : List (MomentarySwitchEvent × EventType)) :
    GrabberEntry × Bool :=
  let state := if e.hidQueueValueMonitor.seized then DeviceState.seized else .observed
  switches.foldl
    (fun (e, needsRegrab) (event, type) =>
      let (manager, changed) := e.probableStuckEventsManager.update event type state
      ({ e with probableStuckEventsManager := manager }, needsRegrab || changed))
    (e, false)

/-- `values_arrived`.  The switches of a virtual device are not looked at. -/
def valuesArrived (s : Grabbing) (switches : List (MomentarySwitchEvent × EventType))
    (e : GrabberEntry) : GrabberEntry :=
  if e.isVirtualDevice then e
  else
    let (e, needsRegrab) := updateStuckEvents e switches
    if needsRegrab then s.grabDevice e else e

omit [NlohmannJson] [NaturalSort] in
/-- The handler of `started`. -/
def monitorStarted (e : GrabberEntry) : GrabberEntry :=
  if e.hidQueueValueMonitor.seized then
    { e with probableStuckEventsManager := e.probableStuckEventsManager.clear }
  else e

/-- Run a function of the queue of the dispatcher. -/
def runJob (s : Grabbing) : GrabJob → Grabbing
  | .grabDevices => { s with entries := s.entries.map s.grabDevice }
  | .ungrabDevices => { s with entries := s.entries.map GrabberEntry.asyncStopQueueValueMonitor }

/-- The `device_matched` handler.  The entry of a device that has matched before is replaced. -/
def deviceMatched (s : Grabbing) (deviceProperties : Devices.DeviceProperties) : Grabbing :=
  let entries := s.entries.filter fun (e : GrabberEntry) => e.deviceId ≠ deviceProperties.deviceId
  ({ s with entries := entries ++ [{ deviceProperties }] } : Grabbing)
    |>.updateDevicesDisabled.asyncGrabDevices

/-- The `device_terminated` handler.  The virtual keyboard takes the other devices with it. -/
def deviceTerminated (s : Grabbing) (deviceId : UInt64) : Grabbing :=
  let isVirtualKeyboard := s.entries.any fun e =>
    e.deviceId = deviceId && e.deviceProperties.deviceIdentifiers.isKeyboard && e.isVirtualDevice
  let s := if isVirtualKeyboard then s.asyncUngrabDevices else s
  let entries := s.entries.filter fun (e : GrabberEntry) => e.deviceId ≠ deviceId
  ({ s with entries } : Grabbing).updateDevicesDisabled.asyncGrabDevices

/-- One step. -/
def step (s : Grabbing) : Input → Grabbing
  | .connected => s.updateDevicesDisabled.asyncGrabDevices
  | .virtualHidKeyboardReady ready =>
    if s.virtualHidKeyboardReady ≠ ready then
      { s with virtualHidKeyboardReady := ready }.updateDevicesDisabled.asyncGrabDevices
    else s
  | .virtualHidPointingReady ready =>
    if s.virtualHidPointingReady ≠ ready then
      { s with virtualHidPointingReady := ready }.updateDevicesDisabled.asyncGrabDevices
    else s
  | .deviceMatched deviceProperties => s.deviceMatched deviceProperties
  | .deviceTerminated deviceId => s.deviceTerminated deviceId
  | .setSystemSleeping value =>
    { s with systemSleeping := value }.updateDevicesDisabled.asyncGrabDevices
  | .coreConfigurationUpdated coreConfiguration needsVirtualHidPointing =>
    { s with coreConfiguration, needsVirtualHidPointing }.updateDevicesDisabled.asyncGrabDevices
  | .manipulatorsChanged needsVirtualHidPointing => { s with needsVirtualHidPointing }
  | .valuesArrived deviceId switches => s.modify deviceId (s.valuesArrived switches)
  | .monitorStarted deviceId => s.modify deviceId monitorStarted
  | .monitor deviceId i =>
    match i with
    | .request _ => s
    | _ => s.modify deviceId fun e =>
      { e with hidQueueValueMonitor := e.hidQueueValueMonitor.step i }
  | .dispatch =>
    match s.pending with
    | [] => s
    | job :: pending => { s with pending }.runJob job
  | .stop => s.asyncUngrabDevices

/-- The grabber after a run, before which there are no devices. -/
abbrev run (coreConfiguration : CoreConfiguration) (is : List Input) : Grabbing :=
  Machine.run step { coreConfiguration } is

/-! ### The decision about a device -/

/-- What `grab_device` requests of the monitor. -/
def decided (s : Grabbing) (e : GrabberEntry) : Option Bool :=
  match s.makeGrabbableState e with
  | .grabbable => some (e.needsToSeizeDevice s.coreConfiguration)
  | .ungrabbableTemporarily => some false
  | .ungrabbablePermanently => none

/-- A virtual device is never seized. -/
theorem needsToSeizeDevice_of_isVirtualDevice {c : CoreConfiguration} {e : GrabberEntry}
    (h : e.isVirtualDevice = true) : e.needsToSeizeDevice c = false :=
  if_pos h

/-- `grab_device` requests what is decided, and nothing else. -/
theorem grabDevice_eq (s : Grabbing) (e : GrabberEntry) :
    s.grabDevice e =
      { e with hidQueueValueMonitor := e.hidQueueValueMonitor.request (s.decided e) } := by
  unfold grabDevice decided GrabberEntry.asyncStartQueueValueMonitor
    GrabberEntry.asyncStopQueueValueMonitor
  cases s.makeGrabbableState e with
  | grabbable =>
      dsimp only
      split_ifs with hvirtual
      · rw [needsToSeizeDevice_of_isVirtualDevice hvirtual]
        rfl
      · rfl
  | ungrabbableTemporarily => exact ite_self _
  | ungrabbablePermanently => rfl

/-- **When a device is to be seized.** -/
theorem decided_eq_some_true_iff (s : Grabbing) (e : GrabberEntry) :
    s.decided e = some true ↔
      e.needsToSeizeDevice s.coreConfiguration = true ∧ s.systemSleeping = false ∧
        s.virtualHidKeyboardReady = true ∧
        (s.needsPrepareVirtualHidPointingDevice = true → s.virtualHidPointingReady = true) ∧
        e.probableStuckEventsManager.probableStuckEvents = ∅ := by
  have hvirtual : e.needsToSeizeDevice s.coreConfiguration = true →
      e.needsToObserveDevice = false := by
    intro hseize
    by_contra h
    rw [needsToSeizeDevice_of_isVirtualDevice (Bool.of_not_eq_false h)] at hseize
    cases hseize
  rw [← ProbableStuckEventsManager.findProbableStuckEvent_eq_none, ← Option.not_isSome_iff_eq_none]
  unfold decided makeGrabbableState
  split_ifs <;> simp_all

/-- Two grabbers decide alike about two devices. -/
theorem decided_congr {s t : Grabbing} {e f : GrabberEntry}
    (hconfiguration : t.coreConfiguration = s.coreConfiguration)
    (hsleeping : t.systemSleeping = s.systemSleeping)
    (hkeyboard : t.virtualHidKeyboardReady = s.virtualHidKeyboardReady)
    (hpointing : t.virtualHidPointingReady = s.virtualHidPointingReady)
    (hprepare : t.needsPrepareVirtualHidPointingDevice = s.needsPrepareVirtualHidPointingDevice)
    (hproperties : f.deviceProperties = e.deviceProperties) (hdisabled : f.disabled = e.disabled)
    (hstuck : f.probableStuckEventsManager.findProbableStuckEvent =
      e.probableStuckEventsManager.findProbableStuckEvent) :
    t.decided f = s.decided e := by
  have hseize : f.needsToSeizeDevice t.coreConfiguration =
      e.needsToSeizeDevice s.coreConfiguration := by
    rw [GrabberEntry.needsToSeizeDevice, GrabberEntry.needsToSeizeDevice,
      GrabberEntry.isVirtualDevice, GrabberEntry.isVirtualDevice, hproperties, hdisabled,
      hconfiguration]
  have hobserve : f.needsToObserveDevice = e.needsToObserveDevice := by
    rw [GrabberEntry.needsToObserveDevice, GrabberEntry.needsToObserveDevice,
      GrabberEntry.isVirtualDevice, GrabberEntry.isVirtualDevice, hproperties]
  rw [decided, decided, makeGrabbableState, makeGrabbableState, hseize, hobserve, hsleeping,
    hkeyboard, hpointing, hprepare, hstuck]

omit [NlohmannJson] [NaturalSort] in
/-- The devices stay the same, apart from their monitors and their switches. -/
structure KeepsDevices (f : GrabberEntry → GrabberEntry) : Prop where
  deviceProperties : ∀ e, (f e).deviceProperties = e.deviceProperties
  disabled : ∀ e, (f e).disabled = e.disabled

/-- The pointing device is needed as before. -/
theorem needsPrepareVirtualHidPointingDevice_map {f : GrabberEntry → GrabberEntry}
    (hf : KeepsDevices f) (s : Grabbing) :
    needsPrepareVirtualHidPointingDevice { s with entries := s.entries.map f } =
      s.needsPrepareVirtualHidPointingDevice := by
  have hseize (e : GrabberEntry) : (f e).needsToSeizeDevice s.coreConfiguration =
      e.needsToSeizeDevice s.coreConfiguration := by
    rw [GrabberEntry.needsToSeizeDevice, GrabberEntry.needsToSeizeDevice,
      GrabberEntry.isVirtualDevice, GrabberEntry.isVirtualDevice, hf.deviceProperties,
      hf.disabled]
  unfold needsPrepareVirtualHidPointingDevice
  dsimp only
  rw [List.any_map]
  congr 2
  funext e
  show ((f e).needsToSeizeDevice s.coreConfiguration && _) = _
  rw [hseize, hf.deviceProperties]

/-- What is decided depends on neither the monitors nor the other devices' switches. -/
theorem decided_map {f : GrabberEntry → GrabberEntry} (hf : KeepsDevices f) (s : Grabbing)
    {e e' : GrabberEntry} (hproperties : e'.deviceProperties = e.deviceProperties)
    (hdisabled : e'.disabled = e.disabled)
    (hstuck : e'.probableStuckEventsManager.findProbableStuckEvent =
      e.probableStuckEventsManager.findProbableStuckEvent) :
    decided { s with entries := s.entries.map f } e' = s.decided e :=
  decided_congr rfl rfl rfl rfl (needsPrepareVirtualHidPointingDevice_map hf s) hproperties
    hdisabled hstuck

/-! ### One step -/

omit [NlohmannJson] [NaturalSort] in
/-- The switches change what is known of them, and the event to wait for only when the device is to
be grabbed again. -/
theorem updateStuckEvents_eq (e : GrabberEntry)
    (switches : List (MomentarySwitchEvent × EventType)) :
    ∃ manager, (updateStuckEvents e switches).1 = { e with probableStuckEventsManager := manager } ∧
      ((updateStuckEvents e switches).2 = false →
        manager.findProbableStuckEvent = e.probableStuckEventsManager.findProbableStuckEvent) := by
  unfold updateStuckEvents
  dsimp only
  generalize (if e.hidQueueValueMonitor.seized = true then DeviceState.seized else .observed) =
    state
  induction switches using List.reverseRecOn with
  | nil => exact ⟨e.probableStuckEventsManager, rfl, fun _ => rfl⟩
  | append_singleton switches x ih =>
      obtain ⟨event, type⟩ := x
      obtain ⟨manager, hmanager, hfind⟩ := ih
      rw [List.foldl_append, List.foldl_cons, List.foldl_nil]
      generalize switches.foldl _ (e, false) = acc at hmanager hfind ⊢
      obtain ⟨e', needsRegrab⟩ := acc
      obtain rfl : e' = { e with probableStuckEventsManager := manager } := hmanager
      refine ⟨(manager.update event type state).1, rfl, fun hregrab => ?_⟩
      obtain ⟨hregrab, hchanged⟩ := Bool.or_eq_false_iff.mp hregrab
      rw [← hfind hregrab]
      -- An update that changes the event says so.
      unfold ProbableStuckEventsManager.update at hchanged ⊢
      split_ifs at hchanged ⊢
      · simpa using hchanged
      · rfl

/-- The device is grabbed again, or what decides about it stays the same. -/
theorem valuesArrived_eq (s : Grabbing) (switches : List (MomentarySwitchEvent × EventType))
    (e : GrabberEntry) :
    ∃ manager,
      s.valuesArrived switches e = s.grabDevice { e with probableStuckEventsManager := manager } ∨
      s.valuesArrived switches e = { e with probableStuckEventsManager := manager } ∧
        manager.findProbableStuckEvent =
          e.probableStuckEventsManager.findProbableStuckEvent := by
  unfold valuesArrived
  split_ifs with hvirtual
  · exact ⟨e.probableStuckEventsManager, .inr ⟨rfl, rfl⟩⟩
  · obtain ⟨manager, hmanager, hfind⟩ := updateStuckEvents_eq e switches
    refine ⟨manager, ?_⟩
    dsimp only
    rw [hmanager]
    cases hregrab : (updateStuckEvents e switches).2 with
    | true => exact .inl (if_pos rfl)
    | false => exact .inr ⟨if_neg Bool.false_ne_true, hfind hregrab⟩

/-- What one step may do with the monitor of a device. -/
inductive MonitorMoves (i : Input) (e : GrabberEntry) : HidQueueValueMonitor → Prop
  | rests : MonitorMoves i e e.hidQueueValueMonitor
  | request (openOptions : Option Bool) :
      MonitorMoves i e (e.hidQueueValueMonitor.request openOptions)
  | step (j : HidQueueValueMonitor.Input) (h : i = .monitor e.deviceId j) :
      MonitorMoves i e (HidQueueValueMonitor.step e.hidQueueValueMonitor j)

omit [NlohmannJson] [NaturalSort] in
/-- A change of one device, and what it does with its monitor. -/
structure Changes (i : Input) (f : GrabberEntry → GrabberEntry) : Prop where
  keeps : KeepsDevices f
  moves : ∀ e, MonitorMoves i e (f e).hidQueueValueMonitor

omit [NlohmannJson] [NaturalSort] in
theorem changes_id (i : Input) : Changes i id :=
  ⟨⟨fun _ => rfl, fun _ => rfl⟩, fun _ => .rests⟩

/-- Grabbing a device requests what is decided for it. -/
theorem changes_grabDevice (i : Input) (s : Grabbing) : Changes i s.grabDevice where
  keeps := ⟨fun e => by rw [grabDevice_eq], fun e => by rw [grabDevice_eq]⟩
  moves e := by
    rw [grabDevice_eq]
    exact .request (s.decided e)

omit [NlohmannJson] [NaturalSort] in
theorem changes_asyncStopQueueValueMonitor (i : Input) :
    Changes i GrabberEntry.asyncStopQueueValueMonitor :=
  ⟨⟨fun _ => rfl, fun _ => rfl⟩, fun _ => .request none⟩

/-- Arriving values may grab the device, too. -/
theorem changes_valuesArrived (i : Input) (s : Grabbing)
    (switches : List (MomentarySwitchEvent × EventType)) :
    Changes i (s.valuesArrived switches) := by
  refine ⟨⟨fun e => ?_, fun e => ?_⟩, fun e => ?_⟩
  all_goals
    obtain ⟨manager, h | ⟨h, -⟩⟩ := s.valuesArrived_eq switches e
    all_goals rw [h]
  · exact (changes_grabDevice i s).keeps.deviceProperties _
  · exact (changes_grabDevice i s).keeps.disabled _
  · rw [grabDevice_eq]
    exact .request (s.decided _)
  · exact .rests

omit [NlohmannJson] [NaturalSort] in
theorem changes_monitorStarted (i : Input) : Changes i monitorStarted := by
  refine ⟨⟨fun e => ?_, fun e => ?_⟩, fun e => ?_⟩
  all_goals
    unfold monitorStarted
    split_ifs
    all_goals first | rfl | exact .rests

omit [NlohmannJson] [NaturalSort] in
/-- A change of the devices with an identifier. -/
theorem KeepsDevices.modify {f : GrabberEntry → GrabberEntry} (h : KeepsDevices f)
    (deviceId : UInt64) : KeepsDevices fun e => if e.deviceId = deviceId then f e else e := by
  refine ⟨fun e => ?_, fun e => ?_⟩
  all_goals split_ifs
  · exact h.deviceProperties e
  · rfl
  · exact h.disabled e
  · rfl

omit [NlohmannJson] [NaturalSort] in
/-- A change of one device alone. -/
theorem Changes.modify {i : Input} {f : GrabberEntry → GrabberEntry} (h : Changes i f)
    (deviceId : UInt64) :
    Changes i fun e => if e.deviceId = deviceId then f e else e := by
  refine ⟨h.keeps.modify deviceId, fun e => ?_⟩
  split_ifs
  · exact h.moves e
  · exact .rests

/-- **What one step does**: either the devices are looked through and all of them are to be grabbed
anew, or they stay the same. -/
theorem step_cases (s : Grabbing) (i : Input) :
    (∃ t : Grabbing, step s i = t.updateDevicesDisabled.asyncGrabDevices ∧
      ∀ e ∈ t.entries, e ∈ s.entries ∨ ∃ deviceProperties, e = { deviceProperties }) ∨
    ∃ f needsVirtualHidPointing pending, Changes i f ∧
      step s i = { s with entries := s.entries.map f, needsVirtualHidPointing, pending } := by
  have hmodify {f : GrabberEntry → GrabberEntry} (hf : Changes i f) (deviceId : UInt64)
      (hstep : step s i = s.modify deviceId f) :
      ∃ f needsVirtualHidPointing pending, Changes i f ∧
        step s i = { s with entries := s.entries.map f, needsVirtualHidPointing, pending } :=
    ⟨_, s.needsVirtualHidPointing, s.pending, hf.modify deviceId, hstep⟩
  have hid : { s with entries := s.entries.map id } = s := by rw [List.map_id]
  cases i with
  | connected => exact .inl ⟨s, rfl, fun e he => .inl he⟩
  | virtualHidKeyboardReady ready =>
      rw [step]
      split_ifs
      · exact .inl ⟨_, rfl, fun e he => .inl he⟩
      · exact .inr ⟨id, _, _, changes_id _, hid.symm⟩
  | virtualHidPointingReady ready =>
      rw [step]
      split_ifs
      · exact .inl ⟨_, rfl, fun e he => .inl he⟩
      · exact .inr ⟨id, _, _, changes_id _, hid.symm⟩
  | deviceMatched deviceProperties =>
      refine .inl ⟨_, rfl, fun e he => ?_⟩
      rcases List.mem_append.mp he with hmem | hmem
      · exact .inl (List.mem_filter.mp hmem).1
      · exact .inr ⟨deviceProperties, List.mem_singleton.mp hmem⟩
  | deviceTerminated deviceId =>
      refine .inl ⟨_, rfl, fun e he => .inl ?_⟩
      have hmem := (List.mem_filter.mp he).1
      split_ifs at hmem
      · exact hmem
      · exact hmem
  | setSystemSleeping value => exact .inl ⟨_, rfl, fun e he => .inl he⟩
  | coreConfigurationUpdated coreConfiguration needs =>
      exact .inl ⟨_, rfl, fun e he => .inl he⟩
  | manipulatorsChanged needs =>
      refine .inr ⟨id, needs, s.pending, changes_id _, ?_⟩
      rw [List.map_id]
      rfl
  | valuesArrived deviceId switches =>
      exact .inr (hmodify (changes_valuesArrived _ s switches) deviceId rfl)
  | monitorStarted deviceId => exact .inr (hmodify (changes_monitorStarted _) deviceId rfl)
  | monitor deviceId j =>
      have hstep : Changes (.monitor deviceId j) fun e =>
          if e.deviceId = deviceId then
            { e with hidQueueValueMonitor := e.hidQueueValueMonitor.step j }
          else e := by
        refine ⟨⟨fun e => ?_, fun e => ?_⟩, fun e => ?_⟩
        all_goals split_ifs with hdevice
        all_goals try rfl
        · exact .step j (by rw [hdevice])
        · exact .rests
      cases j with
      | request openOptions => exact .inr ⟨id, _, _, changes_id _, hid.symm⟩
      | _ => exact .inr ⟨_, s.needsVirtualHidPointing, s.pending, hstep, rfl⟩
  | dispatch =>
      rw [step]
      split
      · exact .inr ⟨id, _, _, changes_id _, hid.symm⟩
      · next job pending _ =>
          cases job with
          | grabDevices => exact .inr ⟨_, _, pending, changes_grabDevice _ _, rfl⟩
          | ungrabDevices =>
              exact .inr ⟨_, _, pending, changes_asyncStopQueueValueMonitor _, rfl⟩
  | stop => exact .inr ⟨id, _, _, changes_id _, by rw [List.map_id]; rfl⟩

/-! ### The devices that are disabled -/

/-- A device is disabled exactly when it is a built-in keyboard and another device asks for it. -/
def DisablesExactly (s : Grabbing) : Prop :=
  ∀ e ∈ s.entries, e.disabled = (!e.isVirtualDevice &&
    (determineIsBuiltInKeyboard s.coreConfiguration e.deviceProperties &&
      s.needToDisableBuiltInKeyboard))

/-- Whether the built-in keyboard is to be disabled follows from the properties alone. -/
theorem needToDisableBuiltInKeyboard_map {f : GrabberEntry → GrabberEntry}
    (hf : ∀ e, (f e).deviceProperties = e.deviceProperties) (s : Grabbing) :
    needToDisableBuiltInKeyboard { s with entries := s.entries.map f } =
      s.needToDisableBuiltInKeyboard := by
  unfold needToDisableBuiltInKeyboard
  dsimp only
  rw [List.any_map]
  congr 1
  funext e
  show GrabberEntry.isDisableBuiltInKeyboardIfExists s.coreConfiguration (f e) = _
  rw [GrabberEntry.isDisableBuiltInKeyboardIfExists, GrabberEntry.isDisableBuiltInKeyboardIfExists,
    GrabberEntry.isVirtualDevice, GrabberEntry.isVirtualDevice, hf]

omit [NlohmannJson] [NaturalSort] in
/-- The properties of a device stay when it is disabled. -/
theorem deviceProperties_setDisabled (value : Bool) (e : GrabberEntry) :
    (e.setDisabled value).deviceProperties = e.deviceProperties := by
  unfold GrabberEntry.setDisabled
  split_ifs <;> rfl

/-- `update_devices_disabled` disables exactly these, unless a virtual device was disabled. -/
theorem disablesExactly_updateDevicesDisabled {s : Grabbing}
    (hvirtual : ∀ e ∈ s.entries, e.isVirtualDevice = true → e.disabled = false) :
    s.updateDevicesDisabled.DisablesExactly := by
  intro e he
  obtain ⟨e', he', rfl⟩ := List.mem_map.mp he
  have hneed : s.updateDevicesDisabled.needToDisableBuiltInKeyboard =
      s.needToDisableBuiltInKeyboard :=
    needToDisableBuiltInKeyboard_map (fun _ => deviceProperties_setDisabled _ _) s
  rw [hneed, GrabberEntry.isVirtualDevice, deviceProperties_setDisabled]
  show _ = (!e'.isVirtualDevice && _)
  cases hdevice : e'.isVirtualDevice with
  | true =>
      rw [GrabberEntry.setDisabled, if_pos hdevice, hvirtual e' he' hdevice]
      rfl
  | false =>
      rw [GrabberEntry.setDisabled, if_neg (by simp [hdevice])]
      rfl

/-- After every step exactly the devices that have to be disabled are so. -/
theorem disablesExactly_step {s : Grabbing} (h : s.DisablesExactly) (i : Input) :
    (step s i).DisablesExactly := by
  rcases step_cases s i with ⟨t, hstep, hentries⟩ | ⟨f, needs, pending, hf, hstep⟩
  · rw [hstep]
    refine disablesExactly_updateDevicesDisabled (s := t) fun e he hvirtual => ?_
    rcases hentries e he with hmem | ⟨deviceProperties, rfl⟩
    · rw [h e hmem, hvirtual]
      rfl
    · rfl
  · rw [hstep]
    intro e he
    obtain ⟨e', he', rfl⟩ := List.mem_map.mp he
    have hneed := needToDisableBuiltInKeyboard_map hf.keeps.deviceProperties s
    rw [hf.keeps.disabled, h e' he', GrabberEntry.isVirtualDevice, GrabberEntry.isVirtualDevice,
      hf.keeps.deviceProperties, ← hneed]
    rfl

/-- **Which devices are disabled**, in every reachable state. -/
theorem disabled_run (coreConfiguration : CoreConfiguration) (is : List Input) :
    ∀ e ∈ (run coreConfiguration is).entries,
      e.disabled = (!e.isVirtualDevice &&
        (determineIsBuiltInKeyboard (run coreConfiguration is).coreConfiguration
            e.deviceProperties &&
          (run coreConfiguration is).needToDisableBuiltInKeyboard)) := by
  have hinit : ({ coreConfiguration } : Grabbing).DisablesExactly :=
    fun e he => absurd he List.not_mem_nil
  have hkeep : ∀ (s : Grabbing) i, s.DisablesExactly → (step s i).DisablesExactly :=
    fun _ i h => disablesExactly_step h i
  exact @Machine.run_invariant _ _ step DisablesExactly hkeep _ hinit is

/-! ### The requests -/

/-- The devices are about to be grabbed anew, or every request is what is decided. -/
def Upcoming (s : Grabbing) : Prop :=
  s.pending.getLast? = some .grabDevices ∨
    s.pending = [] ∧ ∀ e ∈ s.entries,
      e.hidQueueValueMonitor.requestedOpenOptions = s.decided e

/-- The step changes no decision without a request: it is not a stop, and where the devices are not
about to be grabbed anew, the manipulators and a device that has started leave what is decided as it
is. -/
def Announced (s : Grabbing) : Input → Prop
  | .stop => False
  | .manipulatorsChanged needsVirtualHidPointing =>
    s.pending = [] → ∀ e ∈ s.entries, decided { s with needsVirtualHidPointing } e = s.decided e
  | .monitorStarted deviceId =>
    s.pending = [] → ∀ e ∈ s.entries, e.deviceId = deviceId →
      s.decided (monitorStarted e) = s.decided e
  | _ => True

/-- A request to grab queues the job that does it. -/
theorem upcoming_asyncGrabDevices (s : Grabbing) : s.asyncGrabDevices.Upcoming :=
  .inl List.getLast?_concat

/-- The requests are up to date after one device has changed, exactly when its request is. -/
theorem upcoming_modify_iff {s : Grabbing} (h : s.Upcoming) {f : GrabberEntry → GrabberEntry}
    (hf : KeepsDevices f) (deviceId : UInt64) :
    (s.modify deviceId f).Upcoming ↔
      (s.pending = [] → ∀ e ∈ s.entries, e.deviceId = deviceId →
        (f e).hidQueueValueMonitor.requestedOpenOptions = s.decided (f e)) := by
  have hdecided (e : GrabberEntry) : (s.modify deviceId f).decided e = s.decided e :=
    decided_map (hf.modify deviceId) s rfl rfl rfl
  rcases h with hlast | ⟨hpending, hall⟩
  · refine iff_of_true (.inl hlast) fun hpending => ?_
    rw [hpending] at hlast
    cases hlast
  · constructor
    · rintro (hlast | ⟨-, hmodified⟩) - e he hdevice
      · have hnil : (s.modify deviceId f).pending = [] := hpending
        rw [hnil] at hlast
        cases hlast
      · have hmem : f e ∈ (s.modify deviceId f).entries :=
          List.mem_map.mpr ⟨e, he, if_pos hdevice⟩
        rw [hmodified _ hmem, hdecided]
    · refine fun hdevices => .inr ⟨hpending, fun e he => ?_⟩
      obtain ⟨e', he', rfl⟩ := List.mem_map.mp he
      rw [hdecided]
      split_ifs with hdevice
      · exact hdevices hpending e' he' hdevice
      · exact hall e' he'

/-- The requests stay up to date, or about to be, exactly when the step is announced. -/
theorem upcoming_step_iff {s : Grabbing} (h : s.Upcoming) (i : Input) :
    (step s i).Upcoming ↔ s.Announced i := by
  cases i with
  | connected => exact iff_of_true (upcoming_asyncGrabDevices _) trivial
  | virtualHidKeyboardReady ready =>
      refine iff_of_true ?_ trivial
      rw [step]
      split_ifs
      · exact upcoming_asyncGrabDevices _
      · exact h
  | virtualHidPointingReady ready =>
      refine iff_of_true ?_ trivial
      rw [step]
      split_ifs
      · exact upcoming_asyncGrabDevices _
      · exact h
  | deviceMatched deviceProperties => exact iff_of_true (upcoming_asyncGrabDevices _) trivial
  | deviceTerminated deviceId => exact iff_of_true (upcoming_asyncGrabDevices _) trivial
  | setSystemSleeping value => exact iff_of_true (upcoming_asyncGrabDevices _) trivial
  | coreConfigurationUpdated coreConfiguration needs =>
      exact iff_of_true (upcoming_asyncGrabDevices _) trivial
  | manipulatorsChanged needs =>
      rcases h with hlast | ⟨hpending, hall⟩
      · refine iff_of_true (.inl hlast) fun hpending => ?_
        rw [hpending] at hlast
        cases hlast
      · constructor
        · rintro (hlast | ⟨-, hchanged⟩) - e he
          · have hnil : (step s (.manipulatorsChanged needs)).pending = [] := hpending
            rw [hnil] at hlast
            cases hlast
          · exact (hchanged e he).symm.trans (hall e he)
        · exact fun hannounced => .inr ⟨hpending, fun e he =>
            (hall e he).trans (hannounced hpending e he).symm⟩
  | valuesArrived deviceId switches =>
      refine iff_of_true ?_ trivial
      refine (upcoming_modify_iff h (changes_valuesArrived .stop s switches).keeps deviceId).mpr ?_
      intro hpending e he _
      obtain ⟨manager, hregrab | ⟨hkept, hfind⟩⟩ := s.valuesArrived_eq switches e
      · rw [hregrab, grabDevice_eq, HidQueueValueMonitor.requestedOpenOptions_request]
        exact (decided_congr rfl rfl rfl rfl rfl rfl rfl rfl).symm
      · rcases h with hlast | ⟨-, hall⟩
        · rw [hpending] at hlast
          cases hlast
        · rw [hkept]
          exact (hall e he).trans (@decided_congr _ _ s s e { e with
            probableStuckEventsManager := manager } rfl rfl rfl rfl rfl rfl rfl hfind).symm
  | monitorStarted deviceId =>
      refine (upcoming_modify_iff h (changes_monitorStarted .stop).keeps deviceId).trans ?_
      refine forall_congr' fun hpending => forall₂_congr fun e he => imp_congr_right fun _ => ?_
      rcases h with hlast | ⟨-, hall⟩
      · rw [hpending] at hlast
        cases hlast
      · have hmonitor : (monitorStarted e).hidQueueValueMonitor = e.hidQueueValueMonitor := by
          unfold monitorStarted
          split_ifs <;> rfl
        rw [hmonitor, hall e he]
        exact eq_comm
  | monitor deviceId j =>
      refine iff_of_true ?_ trivial
      have hstep (hj : ∀ openOptions, j ≠ .request openOptions) :
          (s.modify deviceId fun e =>
            { e with hidQueueValueMonitor := e.hidQueueValueMonitor.step j }).Upcoming := by
        have hkeeps : KeepsDevices fun e =>
            { e with hidQueueValueMonitor := e.hidQueueValueMonitor.step j } :=
          ⟨fun _ => rfl, fun _ => rfl⟩
        refine (upcoming_modify_iff h hkeeps deviceId).mpr ?_
        intro hpending e he _
        rcases h with hlast | ⟨-, hall⟩
        · rw [hpending] at hlast
          cases hlast
        · dsimp only
          rw [HidQueueValueMonitor.requestedOpenOptions_step _ hj, hall e he]
          exact (decided_congr rfl rfl rfl rfl rfl rfl rfl rfl).symm
      cases j with
      | request openOptions => exact h
      | _ => exact hstep nofun
  | dispatch =>
      refine iff_of_true ?_ trivial
      unfold step
      dsimp only
      split
      · exact h
      · next job pending hpending =>
          have hlast : s.pending.getLast? = some .grabDevices :=
            h.resolve_right fun hnil => by rw [hnil.1] at hpending; cases hpending
          rw [hpending] at hlast
          cases pending with
          | nil =>
              obtain rfl : job = .grabDevices := Option.some.inj hlast
              refine .inr ⟨rfl, fun e he => ?_⟩
              obtain ⟨e', he', rfl⟩ := List.mem_map.mp he
              have hkeeps := (changes_grabDevice .dispatch { s with pending := [] }).keeps
              have hdecided : decided (runJob { s with pending := [] } .grabDevices)
                  (grabDevice { s with pending := [] } e') =
                    decided { s with pending := [] } e' := by
                refine decided_map hkeeps _ (hkeeps.deviceProperties e') (hkeeps.disabled e') ?_
                rw [grabDevice_eq]
              rw [hdecided, grabDevice_eq, HidQueueValueMonitor.requestedOpenOptions_request]
          | cons job' pending =>
              refine .inl ?_
              cases job with
              | grabDevices => exact hlast
              | ungrabDevices => exact hlast
  | stop =>
      refine iff_of_false ?_ id
      rintro (hlast | ⟨hnil, -⟩)
      · rw [show (step s .stop).pending = s.pending ++ [.ungrabDevices] from rfl,
          List.getLast?_concat] at hlast
        cases hlast
      · exact List.concat_ne_nil _ _ hnil

/-- **The requests are up to date, or about to be**, all along a run, exactly when all its steps are
announced. -/
theorem upcoming_iff (coreConfiguration : CoreConfiguration) (is : List Input) :
    (∀ before after, is = before ++ after → (run coreConfiguration before).Upcoming) ↔
      Machine.Steps step Announced { coreConfiguration } is :=
  @Machine.steps_iff _ _ step Announced Upcoming (fun _ => True) (fun _ _ _ _ => trivial)
    (fun _ i _ h => upcoming_step_iff h i) _ trivial
    (.inr ⟨rfl, fun _ he => absurd he List.not_mem_nil⟩) is

/-! ### What the devices are open with -/

/-- The monitor of a device works on its request, and says what the device is open with. -/
structure MonitorsSound (s : Grabbing) : Prop where
  attended : ∀ e ∈ s.entries, e.hidQueueValueMonitor.Attended
  truthful : ∀ e ∈ s.entries, e.hidQueueValueMonitor.Truthful

/-- The step is announced, and if it is one of a monitor, then it does not remove the device, and an
opening ends with the request with which it has begun. -/
def Quiet (s : Grabbing) (i : Input) : Prop :=
  s.Announced i ∧ ∀ deviceId j, i = .monitor deviceId j → j ≠ .deviceRemoved ∧
    ∀ e ∈ s.entries, e.deviceId = deviceId → e.hidQueueValueMonitor.CommitsDecided j

/-- Every quiet step keeps the monitors sound. -/
theorem monitorsSound_step {s : Grabbing} (h : s.MonitorsSound) {i : Input} (hi : s.Quiet i) :
    (step s i).MonitorsSound := by
  have hupdate {t : Grabbing} {e : GrabberEntry}
      (he : e ∈ t.updateDevicesDisabled.asyncGrabDevices.entries) :
      ∃ e' ∈ t.entries, e.hidQueueValueMonitor = e'.hidQueueValueMonitor := by
    obtain ⟨e', he', rfl⟩ := List.mem_map.mp he
    refine ⟨e', he', ?_⟩
    unfold GrabberEntry.setDisabled
    split_ifs <;> rfl
  rcases step_cases s i with ⟨t, hstep, hentries⟩ | ⟨f, needs, pending, hf, hstep⟩
  · rw [hstep]
    refine ⟨fun e he => ?_, fun e he => ?_⟩
    all_goals
      obtain ⟨e', he', hmonitor⟩ := hupdate he
      rw [hmonitor]
      obtain hmem | ⟨deviceProperties, rfl⟩ := hentries e' he'
    · exact h.attended e' hmem
    · exact ⟨fun _ hne => absurd rfl hne, fun hne => absurd rfl hne⟩
    · exact h.truthful e' hmem
    · exact rfl
  · have hmonitor : ∀ e ∈ s.entries, (f e).hidQueueValueMonitor.Attended ∧
        (f e).hidQueueValueMonitor.Truthful := by
      intro e he
      have hattended := h.attended e he
      have htruthful := h.truthful e he
      have hmoves := hf.moves e
      generalize (f e).hidQueueValueMonitor = monitor at hmoves ⊢
      cases hmoves with
      | rests => exact ⟨hattended, htruthful⟩
      | request openOptions =>
          exact ⟨hattended.step (i := .request openOptions) nofun,
            (HidQueueValueMonitor.truthful_step_iff htruthful (.request openOptions)).mpr nofun⟩
      | step j hj =>
          obtain ⟨hremoved, hcommits⟩ := hi.2 e.deviceId j hj
          exact ⟨hattended.step hremoved,
            (HidQueueValueMonitor.truthful_step_iff htruthful j).mpr (hcommits e he rfl)⟩
    rw [hstep]
    refine ⟨fun e he => ?_, fun e he => ?_⟩
    all_goals obtain ⟨e', he', rfl⟩ := List.mem_map.mp he
    · exact (hmonitor e' he').1
    · exact (hmonitor e' he').2

/-- **At rest, every device is open as the grabber decides.** -/
theorem openedWith_eq_decided {coreConfiguration : CoreConfiguration} {is : List Input}
    (his : Machine.Steps step Quiet { coreConfiguration } is)
    (hpending : (run coreConfiguration is).pending = []) {e : GrabberEntry}
    (he : e ∈ (run coreConfiguration is).entries) (hrest : e.hidQueueValueMonitor.AtRest) :
    e.hidQueueValueMonitor.openedWith = (run coreConfiguration is).decided e := by
  have hsound : (run coreConfiguration is).MonitorsSound :=
    @Machine.steps_invariant _ _ step Quiet MonitorsSound
      (fun _ _ hi h => monitorsSound_step h hi) _
      ⟨fun _ he => absurd he List.not_mem_nil, fun _ he => absurd he List.not_mem_nil⟩ is his
  have hupcoming : (run coreConfiguration is).Upcoming :=
    @Machine.steps_invariant _ _ step Quiet Upcoming
      (fun _ i hi h => (upcoming_step_iff h i).mpr hi.1) _
      (.inr ⟨rfl, fun _ he => absurd he List.not_mem_nil⟩) is his
  have hrequested : e.hidQueueValueMonitor.requestedOpenOptions =
      (run coreConfiguration is).decided e := by
    rcases hupcoming with hlast | ⟨-, hall⟩
    · rw [hpending] at hlast
      cases hlast
    · exact hall e he
  calc e.hidQueueValueMonitor.openedWith
      = e.hidQueueValueMonitor.currentOpenOptions := hsound.truthful e he
    _ = e.hidQueueValueMonitor.requestedOpenOptions :=
      (hsound.attended e he).currentOpenOptions_eq hrest
    _ = (run coreConfiguration is).decided e := hrequested

end

/-! ### A run -/

/-- A keyboard. -/
def keyboard : Devices.DeviceProperties where
  deviceId := 1
  deviceIdentifiers := { isKeyboard := true }
  locationId := 0
  manufacturer := ""
  product := ""
  serialNumber := ""
  transport := ""
  isBuiltInKeyboard := false
  isBuiltInPointingDevice := false
  isBuiltInTouchBar := false
  isApple := false

/-- The keyboard matches and is seized. -/
def keyboardSeized : List Input := [
  .virtualHidKeyboardReady true, .dispatch, .deviceMatched keyboard, .dispatch,
  .monitor 1 .runLoop, .monitor 1 .timerJob, .monitor 1 .timerJob, .monitor 1 .runLoop,
  .monitor 1 (.opened true), .monitor 1 .timerJob]

/-- `openedWith_eq_decided` for the keyboard, with the default configuration. -/
theorem openedWith_eq_decided_keyboardSeized :
    letI := NlohmannJson.ofTable []
    letI : NaturalSort := .unordered
    let s := run (.load .loose none) keyboardSeized
    ∃ e ∈ s.entries, e.hidQueueValueMonitor.openedWith = s.decided e ∧
      s.decided e = some true := by
  let := NlohmannJson.ofTable []
  let : NaturalSort := .unordered
  have hsteps : Machine.Steps step Quiet { coreConfiguration := .load .loose none }
      keyboardSeized := by
    have hquiet (s : Grabbing) (i : Input) (hannounced : s.Announced i)
        (hi : ∀ deviceId j, i = .monitor deviceId j → j ≠ .deviceRemoved ∧ j ≠ .opened true) :
        s.Quiet i :=
      ⟨hannounced, fun deviceId j h =>
        ⟨(hi deviceId j h).1, fun _ _ _ hj => absurd hj (hi deviceId j h).2⟩⟩
    have hopening : ∀ e ∈ (run (.load .loose none) (keyboardSeized.take 8)).entries,
        e.hidQueueValueMonitor.opening = e.hidQueueValueMonitor.requestedOpenOptions := by
      decide
    refine ⟨hquiet _ _ trivial nofun, hquiet _ _ trivial nofun, hquiet _ _ trivial nofun,
      hquiet _ _ trivial nofun, hquiet _ _ trivial (by grind), hquiet _ _ trivial (by grind),
      hquiet _ _ trivial (by grind), hquiet _ _ trivial (by grind), ⟨trivial, ?_⟩,
      hquiet _ _ trivial (by grind), trivial⟩
    rintro deviceId j h
    obtain ⟨rfl, rfl⟩ : 1 = deviceId ∧ HidQueueValueMonitor.Input.opened true = j := by
      simpa using h
    exact ⟨by decide, fun e he _ _ openOptions hoptions => (hopening e he).symm.trans hoptions⟩
  have hrest : ∀ e ∈ (run (.load .loose none) keyboardSeized).entries,
      e.hidQueueValueMonitor.AtRest ∧
        (run (.load .loose none) keyboardSeized).decided e = some true := by
    decide
  obtain ⟨e, he⟩ := List.exists_mem_of_ne_nil
    (run (.load .loose none) keyboardSeized).entries (by decide)
  exact ⟨e, he, openedWith_eq_decided hsteps (by decide) he (hrest e he).1, (hrest e he).2⟩

/-- A configuration in which the keyboard disables the built-in one. -/
def disablingConfiguration : CoreConfiguration :=
  letI := NlohmannJson.ofTable []
  letI : NaturalSort := .unordered
  { CoreConfiguration.load .loose none with
    profiles := [(0, { CoreConfiguration.Profile.bare with
      devices := [{
        members := []
        identifiers := { isKeyboard := true }
        values := CoreConfiguration.HelperValues.make.setValue
          CoreConfiguration.Device.Setting.disableBuiltInKeyboardIfExists true
        simpleModifications := {}
        fnFunctionKeys := {} }] })] }

/-- The built-in keyboard and the other one match. -/
def keyboardsMatched : List Input := [
  .deviceMatched { keyboard with deviceId := 2, isBuiltInKeyboard := true }, .dispatch,
  .deviceMatched keyboard, .dispatch]

/-- `disabled_run` for the two keyboards: the built-in one is disabled. -/
theorem disabled_run_keyboardsMatched :
    letI := NlohmannJson.ofTable []
    letI : NaturalSort := .unordered
    let s := run disablingConfiguration keyboardsMatched
    ∃ e ∈ s.entries, e.disabled = true ∧ e.disabled = (!e.isVirtualDevice &&
      (determineIsBuiltInKeyboard s.coreConfiguration e.deviceProperties &&
        s.needToDisableBuiltInKeyboard)) := by
  let := NlohmannJson.ofTable []
  let : NaturalSort := .unordered
  obtain ⟨e, he, hdisabled⟩ : ∃ e ∈ (run disablingConfiguration keyboardsMatched).entries,
      e.disabled = true := by decide
  exact ⟨e, he, hdisabled, disabled_run disablingConfiguration keyboardsMatched e he⟩

end Grabbing

end Karabiner
