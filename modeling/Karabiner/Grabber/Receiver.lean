import Karabiner.CoreConfiguration.Profile
import Karabiner.EventQueue.Queue
import Karabiner.Grabber.DeviceGrabber
import Karabiner.Library.Machine
import Karabiner.Library.Worker

/-!
# The receiver

`core/grabber/receiver.hpp`: what the user's processes send to the grabber.  The receiver keeps the
last system preferences, frontmost application and input source.  It starts a new device grabber
whenever the console user server connects or goes away, and passes on to it what it has kept.

The device grabber is a `Worker`: all its methods enqueue jobs to the dispatcher, and the job for
the system preferences enqueues another one.  Between two jobs anything may happen: another message,
a restart, an event of a device, or an update of the configuration.

* `agrees_of_run` — **the device grabber agrees with the receiver** once its jobs have been run,
  whatever was received and however often it was restarted.
* `systemVariables_of_run` — so do the variables of the system preferences, unless a message sets
  one of them.
* `fingerCount_of_run` — a finger count does not outlive the multitouch extension.
* `connected_iff_of_run` — which client the device grabber works for, and with which configuration.
-/

namespace Karabiner

namespace Receiver

/-! ### The device grabber -/

/-- What the receiver has the device grabber do. -/
inductive Job
  /-- `async_set_system_preferences_properties`. -/
  | setSystemPreferencesProperties (value : SystemPreferencesProperties)
  /-- `async_post_system_preferences_properties_changed_event`. -/
  | postSystemPreferencesPropertiesChangedEvent
  /-- `async_post_frontmost_application_changed_event`. -/
  | postFrontmostApplicationChangedEvent (application : FrontmostApplication)
  /-- `async_post_input_source_changed_event`. -/
  | postInputSourceChangedEvent (properties : InputSourceProperties)
  /-- `async_post_set_variable_event`, which sets the variable, or unsets it. -/
  | postSetVariableEvent (name : String) (value : Option VariableValue)
  /-- `async_start`. -/
  | start (userCoreConfigurationFilePath : String)
deriving DecidableEq

/-- The device grabber, as far as the receiver has to do with it. -/
structure Grabber where
  /-- `weak_console_user_server_client`, by the number of the client. -/
  consoleUserServerClient : Option ℕ
  /-- The file of `configuration_monitor_`. -/
  configurationMonitor : Option String := none
  /-- `core_configuration_->get_selected_profile()`. -/
  selectedProfile : CoreConfiguration.Profile
  systemPreferencesProperties : SystemPreferencesProperties := ⟨false, true⟩
  /-- What `fn_function_keys_manipulator_manager_->update` was called with last. -/
  fnFunctionKeys : Option (CoreConfiguration.Profile × SystemPreferencesProperties) := none
  mergedInputEventQueue : Queue := {}

/-- A moment at which a job is run: what the clock says for the entries that are made, and the state
of the process. -/
structure Moment [Exprtk] where
  now : EventType → AbsoluteTime
  world : World

/-- The events of `set_variables` and of the multitouch extension. -/
def setVariableEvent (name : String) (value : Option VariableValue) : Event :=
  match value with
  | some value => .setVariable { name := some name, value := some value }
  | none => .setVariable { name := some name, type := .unset }

section

variable [Exprtk] [SystemClock]

/-- `push_back_entry` on the merged queue. -/
def Grabber.push (w : World) (e : Entry) (g : Grabber) : Grabber :=
  { g with mergedInputEventQueue := (Output.emplaceBackEntry ⟨g.mergedInputEventQueue, w⟩ e).queue }

/-- Push an entry that the grabber makes itself. -/
def Grabber.post (c : Moment) (event : Event) (eventType : EventType) (g : Grabber) : Grabber :=
  g.push c.world
    { DeviceGrabber.virtualEntry 0 (c.now eventType) event with eventType := eventType }

/-- The body of a job, and the jobs that it enqueues. -/
def exec (c : Moment) (job : Job) (g : Grabber) : Grabber × List Job :=
  match job with
  | .setSystemPreferencesProperties value =>
    ({ g with
        systemPreferencesProperties := value
        fnFunctionKeys := some (g.selectedProfile, value) },
      [.postSystemPreferencesPropertiesChangedEvent])
  | .postSystemPreferencesPropertiesChangedEvent =>
    (g.post c (.systemPreferencesPropertiesChanged g.systemPreferencesProperties) .single, [])
  | .postFrontmostApplicationChangedEvent application =>
    (g.post c (.frontmostApplicationChanged application) .single, [])
  | .postInputSourceChangedEvent properties =>
    (g.post c (.inputSourceChanged properties) .single, [])
  | .postSetVariableEvent name value =>
    let event := setVariableEvent name value
    ((g.post c event .keyDown).post c event .keyUp, [])
  | .start userCoreConfigurationFilePath =>
    ({ g with configurationMonitor := some userCoreConfigurationFilePath }, [])

/-- The `core_configuration_updated` handler. -/
def coreConfigurationUpdated (profile : CoreConfiguration.Profile) (w : Worker Grabber Job) :
    Worker Grabber Job :=
  if w.state.configurationMonitor.isSome then
    (w.modify fun g => { g with
      selectedProfile := profile
      fnFunctionKeys := some (profile, g.systemPreferencesProperties) }).enqueue
        [.postSystemPreferencesPropertiesChangedEvent]
  else w

end

end Receiver

/-! ### The receiver -/

/-- The connection to a console user server.  `connected` is no field of the source: it records
whether that signal has been received. -/
structure ConsoleUserServerClient where
  id : ℕ
  userCoreConfigurationFilePath : String
  connected : Bool := false

/-- `receiver`, with the number of console user server clients so far. -/
structure Receiver where
  systemPreferencesProperties : SystemPreferencesProperties := ⟨false, true⟩
  frontmostApplication : FrontmostApplication := {}
  inputSourceProperties : InputSourceProperties := {}
  consoleUserServerClient : Option ConsoleUserServerClient := none
  clients : ℕ := 0
  /-- There is a `multitouch_extension_client_`. -/
  multitouchExtensionClient : Bool := false
  deviceGrabber : Option (Worker Receiver.Grabber Receiver.Job) := none

namespace Receiver

/-- `get_system_core_configuration_file_path`. -/
def systemCoreConfigurationFilePath : String :=
  "/Library/Application Support/org.pqrs/config/karabiner.json"

/-- `start_device_grabber`.  The configuration of a new device grabber is the default. -/
def startDeviceGrabber (defaultProfile : CoreConfiguration.Profile) (path : String)
    (s : Receiver) : Receiver :=
  match s.deviceGrabber with
  | some _ => s
  | none =>
    { s with
      deviceGrabber := some {
        state := {
          consoleUserServerClient := s.consoleUserServerClient.map (·.id)
          selectedProfile := defaultProfile }
        jobs := [
          .setSystemPreferencesProperties s.systemPreferencesProperties,
          .postFrontmostApplicationChangedEvent s.frontmostApplication,
          .postInputSourceChangedEvent s.inputSourceProperties,
          .start path] } }

/-- `stop_device_grabber`.  The jobs of the device grabber are removed from the dispatcher. -/
def stopDeviceGrabber (s : Receiver) : Receiver := { s with deviceGrabber := none }

/-- `start_grabbing_if_system_core_configuration_file_exists`. -/
def startGrabbingIfSystemCoreConfigurationFileExists (defaultProfile : CoreConfiguration.Profile)
    (fileExists : Bool) (s : Receiver) : Receiver :=
  if fileExists then
    s.stopDeviceGrabber.startDeviceGrabber defaultProfile systemCoreConfigurationFilePath
  else s

/-- Enqueue jobs, if there is a device grabber. -/
def enqueue (jobs : List Job) (s : Receiver) : Receiver :=
  { s with deviceGrabber := s.deviceGrabber.map (·.enqueue jobs) }

/-- The variables that are unset when the multitouch extension is gone. -/
def multitouchExtensionVariables : List String := [
  "multitouch_extension_finger_count_upper_quarter_area",
  "multitouch_extension_finger_count_lower_quarter_area",
  "multitouch_extension_finger_count_left_quarter_area",
  "multitouch_extension_finger_count_right_quarter_area",
  "multitouch_extension_finger_count_upper_half_area",
  "multitouch_extension_finger_count_lower_half_area",
  "multitouch_extension_finger_count_left_half_area",
  "multitouch_extension_finger_count_right_half_area",
  "multitouch_extension_finger_count_total",
  "multitouch_extension_palm_count_upper_half_area",
  "multitouch_extension_palm_count_lower_half_area",
  "multitouch_extension_palm_count_left_half_area",
  "multitouch_extension_palm_count_right_half_area",
  "multitouch_extension_palm_count_total"]

/-- `clear_multitouch_extension_environment_variables`. -/
def clearMultitouchExtensionEnvironmentVariables : List Job :=
  multitouchExtensionVariables.map fun name => .postSetVariableEvent name none

/-- The loop over the variables of a message, which ends at the first value that cannot be read. -/
def setVariableJobs : List (String × Option VariableValue) → List Job
  | (name, some value) :: assignments =>
    .postSetVariableEvent name (some value) :: setVariableJobs assignments
  | _ => []

/-- The events that are not posted by the jobs of the receiver. -/
def IsForeign : Event → Prop
  | .frontmostApplicationChanged _ | .inputSourceChanged _ | .systemPreferencesPropertiesChanged _
  | .setVariable _ => False
  | _ => True

section

variable [Exprtk] [SystemClock]

/-- What may happen, in the order of the dispatcher. -/
inductive Input
  /-- `connect_console_user_server`, from an endpoint that may have no path. -/
  | connectConsoleUserServer (userCoreConfigurationFilePath : String) (hasEndpoint : Bool)
  /-- `connected` of the console user server client. -/
  | consoleUserServerConnected
  /-- `connect_failed` or `closed`. -/
  | consoleUserServerClosed (systemFileExists : Bool)
  | systemPreferencesUpdated (properties : SystemPreferencesProperties)
  | frontmostApplicationChanged (application : FrontmostApplication)
  | inputSourceChanged (properties : InputSourceProperties)
  | connectMultitouchExtension
  /-- `connect_failed` or `closed` of the multitouch extension client. -/
  | multitouchExtensionClosed
  | setVariables (assignments : List (String × Option VariableValue))
  /-- The dispatcher runs the first job of the device grabber. -/
  | runJob (c : Moment)
  /-- The configuration file is read. -/
  | coreConfigurationUpdated (selectedProfile : CoreConfiguration.Profile)
  /-- Another part of the device grabber pushes an entry to the merged queue. -/
  | push (e : { e : Entry // IsForeign e.event }) (w : World)
  /-- The merged queue is worked off. -/
  | eraseFrontEvent

/-- What the receiver does with an input. -/
def step (defaultProfile : CoreConfiguration.Profile) (s : Receiver) : Input → Receiver
  | .connectConsoleUserServer userCoreConfigurationFilePath hasEndpoint =>
    { s with
      consoleUserServerClient :=
        if hasEndpoint then some { id := s.clients, userCoreConfigurationFilePath } else none
      clients := s.clients + 1 }
  | .consoleUserServerConnected =>
    match s.consoleUserServerClient with
    | some client =>
      let s := { s with consoleUserServerClient := some { client with connected := true } }
      s.stopDeviceGrabber.startDeviceGrabber defaultProfile client.userCoreConfigurationFilePath
    | none => s
  | .consoleUserServerClosed systemFileExists =>
    match s.consoleUserServerClient with
    | some _ =>
      let s := { s with consoleUserServerClient := none }
      s.stopDeviceGrabber.startGrabbingIfSystemCoreConfigurationFileExists defaultProfile
        systemFileExists
    | none => s
  | .systemPreferencesUpdated properties =>
    { s with systemPreferencesProperties := properties }.enqueue
      [.setSystemPreferencesProperties properties]
  | .frontmostApplicationChanged application =>
    { s with frontmostApplication := application }.enqueue
      [.postFrontmostApplicationChangedEvent application]
  | .inputSourceChanged properties =>
    { s with inputSourceProperties := properties }.enqueue [.postInputSourceChangedEvent properties]
  | .connectMultitouchExtension => { s with multitouchExtensionClient := true }
  | .multitouchExtensionClosed =>
    if s.multitouchExtensionClient then
      { s with multitouchExtensionClient := false }.enqueue
        clearMultitouchExtensionEnvironmentVariables
    else s
  | .setVariables assignments => s.enqueue (setVariableJobs assignments)
  | .runJob c => { s with deviceGrabber := s.deviceGrabber.map (·.runJob exec c) }
  | .coreConfigurationUpdated selectedProfile =>
    { s with
      deviceGrabber := s.deviceGrabber.map (Receiver.coreConfigurationUpdated selectedProfile) }
  | .push e w => { s with deviceGrabber := s.deviceGrabber.map (·.modify (Grabber.push w e)) }
  | .eraseFrontEvent =>
    { s with
      deviceGrabber := s.deviceGrabber.map (·.modify fun g =>
        { g with mergedInputEventQueue := g.mergedInputEventQueue.eraseFrontEvent }) }

/-- The receiver after a run.  Its constructor starts grabbing if there is a system configuration
file. -/
def run (defaultProfile : CoreConfiguration.Profile) (systemFileExists : Bool)
    (is : List Input) : Receiver :=
  Machine.run (step defaultProfile)
    (startGrabbingIfSystemCoreConfigurationFileExists defaultProfile systemFileExists {}) is

/-! ### The environment of the merged queue -/

/-- `get_manipulator_environment` of the merged queue. -/
def Grabber.environment (g : Grabber) : ManipulatorEnvironment :=
  g.mergedInputEventQueue.manipulatorEnvironment

/-- The value of a variable. -/
def Grabber.variable (name : String) (g : Grabber) : Option VariableValue :=
  g.environment.environmentVariables.lookup name

/-- A set variable event acts on the environment as the assignment it carries. -/
theorem environment_postSetVariableEvent (c : Moment) (name : String)
    (value : Option VariableValue) (g : Grabber) :
    (exec c (.postSetVariableEvent name value) g).1.environment =
      match value with
      | some value => g.environment.setVariable name value
      | none => g.environment.unsetVariable name := by
  cases value <;> rfl

/-- What a job makes of the environment, apart from the variables of the system preferences. -/
theorem variable_postSetVariableEvent (c : Moment) (name other : String)
    (value : Option VariableValue) (g : Grabber) :
    (exec c (.postSetVariableEvent name value) g).1.variable other =
      if name = other then value else g.variable other := by
  unfold Grabber.variable
  rw [environment_postSetVariableEvent]
  split_ifs with hname
  · subst hname
    cases value with
    | some value => exact AList.lookup_insert _
    | none => exact AList.lookup_erase _ _
  · cases value with
    | some value => exact AList.lookup_insert_ne (Ne.symm hname)
    | none => exact AList.lookup_erase_ne (Ne.symm hname)

/-- The variables of the system preferences. -/
def systemVariables : List String :=
  ["system.use_fkeys_as_standard_function_keys", "system.scroll_direction_is_natural"]

/-- The values that they have. -/
def systemVariable (properties : SystemPreferencesProperties) (name : String) :
    Option VariableValue :=
  if name = "system.use_fkeys_as_standard_function_keys" then
    some (.boolean properties.useFkeysAsStandardFunctionKeys)
  else some (.boolean properties.scrollDirectionIsNatural)

omit [Exprtk] [SystemClock] in
/-- The variables of the multitouch extension are none of the system variables. -/
theorem notMem_systemVariables : ∀ name ∈ multitouchExtensionVariables, name ∉ systemVariables := by
  decide

/-- The event sets every system variable anew and touches no other variable. -/
theorem variable_postSystemPreferencesPropertiesChangedEvent (c : Moment) (name : String)
    (g : Grabber) :
    (exec c .postSystemPreferencesPropertiesChangedEvent g).1.variable name =
      if name ∈ systemVariables then systemVariable g.systemPreferencesProperties name
      else g.variable name := by
  show ((g.environment.setVariable _ _).setVariable _ _).environmentVariables.lookup name = _
  unfold systemVariables systemVariable Grabber.variable ManipulatorEnvironment.setVariable
  by_cases hnatural : name = "system.scroll_direction_is_natural"
  · subst hnatural
    simp
  · by_cases hfkeys : name = "system.use_fkeys_as_standard_function_keys"
    · subst hfkeys
      simp
    · simp [AList.lookup_insert_ne hnatural, AList.lookup_insert_ne hfkeys, hnatural, hfkeys]

/-! ### Views of the device grabber -/

/-- What the receiver keeps. -/
structure Told where
  systemPreferencesProperties : SystemPreferencesProperties
  frontmostApplication : FrontmostApplication
  inputSourceProperties : InputSourceProperties

/-- What a job tells the device grabber. -/
def Told.apply (t : Told) : Job → Told
  | .setSystemPreferencesProperties value => { t with systemPreferencesProperties := value }
  | .postFrontmostApplicationChangedEvent application =>
    { t with frontmostApplication := application }
  | .postInputSourceChangedEvent properties => { t with inputSourceProperties := properties }
  | _ => t

/-- The only job that is enqueued by a job. -/
theorem eq_of_mem_exec {c : Moment} {job spawned : Job} {g : Grabber}
    (h : spawned ∈ (exec c job g).2) : spawned = .postSystemPreferencesPropertiesChangedEvent := by
  cases job with
  | setSystemPreferencesProperties value => exact List.mem_singleton.mp h
  | _ => cases h

/-- What the device grabber has been told. -/
def toldView : Worker.View exec (fun _ => True) Told where
  current g :=
    ⟨g.systemPreferencesProperties, g.environment.frontmostApplication,
      g.environment.inputSourceProperties⟩
  apply := Told.apply
  current_exec c job g _ := by
    cases job with
    | postSetVariableEvent name value => cases value <;> rfl
    | _ => rfl
  allowed_spawned _ _ _ _ _ _ := trivial
  apply_comm c job g spawned h x other _ := by
    rw [eq_of_mem_exec h]
    rfl

/-- The job sets no variable of the system preferences. -/
def KeepsSystemVariables (job : Job) : Prop :=
  ∀ name value, job = .postSetVariableEvent name value → name ∉ systemVariables

/-- The system preferences, and one of their variables. -/
def systemVariableView {name : String} (hname : name ∈ systemVariables) :
    Worker.View exec KeepsSystemVariables
      (SystemPreferencesProperties × Option VariableValue) where
  current g := (g.systemPreferencesProperties, g.variable name)
  apply x
    | .setSystemPreferencesProperties value => (value, systemVariable value name)
    | .postSystemPreferencesPropertiesChangedEvent => (x.1, systemVariable x.1 name)
    | _ => x
  current_exec c job g hjob := by
    cases job with
    | postSystemPreferencesPropertiesChangedEvent =>
        have hvariable := variable_postSystemPreferencesPropertiesChangedEvent c name g
        rw [if_pos hname] at hvariable
        exact congrArg (Prod.mk g.systemPreferencesProperties) hvariable
    | postSetVariableEvent other value =>
        have hne : other ≠ name := by
          rintro rfl
          exact hjob other value rfl hname
        have hvariable := variable_postSetVariableEvent c other name value g
        rw [if_neg hne] at hvariable
        exact congrArg (Prod.mk g.systemPreferencesProperties) hvariable
    | _ => rfl
  allowed_spawned c job g _ spawned h := by
    intro other value hother
    cases (eq_of_mem_exec h).symm.trans hother
  apply_comm c job g spawned h x other hother := by
    rw [eq_of_mem_exec h]
    cases other <;> rfl

/-- A variable that is not one of the system preferences. -/
def variableView {name : String} (hname : name ∉ systemVariables) :
    Worker.View exec (fun _ => True) (Option VariableValue) where
  current g := g.variable name
  apply x
    | .postSetVariableEvent other value => if other = name then value else x
    | _ => x
  current_exec c job g _ := by
    cases job with
    | postSystemPreferencesPropertiesChangedEvent =>
        have hvariable := variable_postSystemPreferencesPropertiesChangedEvent c name g
        rw [if_neg hname] at hvariable
        exact hvariable
    | postSetVariableEvent other value => exact variable_postSetVariableEvent c other name value g
    | _ => rfl
  allowed_spawned _ _ _ _ _ _ := trivial
  apply_comm c job g spawned h x other _ := by
    rw [eq_of_mem_exec h]

/-- The file that the device grabber is to watch. -/
def configurationView : Worker.View exec (fun _ => True) (Option String) where
  current g := g.configurationMonitor
  apply x
    | .start userCoreConfigurationFilePath => some userCoreConfigurationFilePath
    | _ => x
  current_exec c job g _ := by cases job <;> rfl
  allowed_spawned _ _ _ _ _ _ := trivial
  apply_comm c job g spawned h x other _ := by
    rw [eq_of_mem_exec h]

/-! ### Following the receiver -/

/-- What the receiver keeps. -/
def told (s : Receiver) : Told :=
  ⟨s.systemPreferencesProperties, s.frontmostApplication, s.inputSourceProperties⟩

/-- What the views look at. -/
def Grabber.seen (g : Grabber) :
    Told × Option String × AList fun _ : String => VariableValue :=
  (toldView.current g, g.configurationMonitor, g.environment.environmentVariables)

/-- A foreign entry is queued without a trace in what the grabber has seen. -/
theorem seen_push (w : World) {e : Entry} (he : IsForeign e.event) (g : Grabber) :
    (g.push w e).seen = g.seen := by
  have henvironment : (g.push w e).environment =
      (Queue.updateManipulatorEnvironment g.environment w e).1 := rfl
  unfold Grabber.seen toldView
  dsimp only
  rw [henvironment]
  unfold Queue.updateManipulatorEnvironment
  cases hevent : e.event with
  | frontmostApplicationChanged _ => rw [hevent] at he; exact he.elim
  | inputSourceChanged _ => rw [hevent] at he; exact he.elim
  | systemPreferencesPropertiesChanged _ => rw [hevent] at he; exact he.elim
  | setVariable _ => rw [hevent] at he; exact he.elim
  | _ => rfl

variable {α : Type*} {allowed tells : Job → Prop}

/-- The jobs that an input may enqueue. -/
def Input.jobs : Input → List Job
  | .systemPreferencesUpdated properties => [.setSystemPreferencesProperties properties]
  | .frontmostApplicationChanged application => [.postFrontmostApplicationChangedEvent application]
  | .inputSourceChanged properties => [.postInputSourceChangedEvent properties]
  | .multitouchExtensionClosed => clearMultitouchExtensionEnvironmentVariables
  | .setVariables assignments => setVariableJobs assignments
  | .coreConfigurationUpdated _ => [.postSystemPreferencesPropertiesChangedEvent]
  | _ => []

/-- The view comes to what the receiver keeps, as `kept` says. -/
def Tracks (v : Worker.View exec allowed α) (kept : Told → α) (s : Receiver) : Prop :=
  ∀ w, s.deviceGrabber = some w → w.Allows allowed ∧ v.settled w = kept s.told

/-- **A view that follows the receiver**: a new device grabber starts with it, and a job that
`tells` changes it as it changes what the receiver keeps. -/
structure Follows (v : Worker.View exec allowed α) (tells : Job → Prop) (kept : Told → α) :
    Prop where
  current_congr : ∀ g g', g.seen = g'.seen → v.current g = v.current g'
  tracks_start : ∀ defaultProfile path s, s.deviceGrabber = none →
    Tracks v kept (startDeviceGrabber defaultProfile path s)
  apply_kept : ∀ t job, tells job → v.apply (kept t) job = kept (t.apply job)

/-- A receiver without a grabber tracks every view. -/
theorem Tracks.of_none {v : Worker.View exec allowed α} {kept : Told → α} {s : Receiver}
    (h : s.deviceGrabber = none) : Tracks v kept s := by
  intro w hw
  cases h.symm.trans hw

/-- Only the grabber and what it has been told decide whether a view is tracked. -/
theorem Tracks.of_eq {v : Worker.View exec allowed α} {kept : Told → α} {s s' : Receiver}
    (h : Tracks v kept s) (hgrabber : s'.deviceGrabber = s.deviceGrabber)
    (htold : s'.told = s.told) : Tracks v kept s' := by
  intro w hw
  rw [htold]
  exact h w (hgrabber ▸ hw)

/-- The device grabber is changed in a way that the view does not see. -/
theorem Tracks.map {v : Worker.View exec allowed α} {kept : Told → α} {s s' : Receiver}
    (h : Tracks v kept s) {f : Worker Grabber Job → Worker Grabber Job}
    (hgrabber : s'.deviceGrabber = s.deviceGrabber.map f) (htold : s'.told = s.told)
    (hallows : ∀ w, w.Allows allowed → (f w).Allows allowed)
    (hsettled : ∀ w, w.Allows allowed → v.settled w = kept s.told →
      v.settled (f w) = kept s.told) : Tracks v kept s' := by
  intro w hw
  rw [hgrabber] at hw
  obtain ⟨w', hw', rfl⟩ := Option.map_eq_some_iff.mp hw
  obtain ⟨hallows', hsettled'⟩ := h w' hw'
  rw [htold]
  exact ⟨hallows w' hallows', hsettled w' hallows' hsettled'⟩

/-- Jobs are enqueued that tell what the receiver has been told. -/
theorem Tracks.enqueue {v : Worker.View exec allowed α} {kept : Told → α} {s s' : Receiver}
    (hfollows : Follows v tells kept) (h : Tracks v kept s) {jobs : List Job}
    (hgrabber : s'.deviceGrabber = s.deviceGrabber.map (·.enqueue jobs))
    (htold : s'.told = jobs.foldl Told.apply s.told)
    (hjobs : ∀ job ∈ jobs, allowed job ∧ tells job) : Tracks v kept s' := by
  have hfold (t : Told) : jobs.foldl v.apply (kept t) = kept (jobs.foldl Told.apply t) := by
    clear hgrabber htold
    induction jobs generalizing t with
    | nil => rfl
    | cons job jobs ih =>
        obtain ⟨⟨-, hjob⟩, hjobs⟩ := List.forall_mem_cons.mp hjobs
        rw [List.foldl_cons, List.foldl_cons, hfollows.apply_kept t job hjob, ih hjobs]
  intro w hw
  rw [hgrabber] at hw
  obtain ⟨w', hw', rfl⟩ := Option.map_eq_some_iff.mp hw
  obtain ⟨hallows, hsettled⟩ := h w' hw'
  rw [v.settled_enqueue, hsettled, hfold, htold]
  exact ⟨hallows.enqueue fun job hjob => (hjobs job hjob).1, rfl⟩

omit [Exprtk] [SystemClock] in
/-- Set variable jobs tell the grabber nothing that is recorded. -/
theorem foldl_apply_setVariables {jobs : List Job}
    (h : ∀ job ∈ jobs, ∃ name value, job = .postSetVariableEvent name value) (t : Told) :
    jobs.foldl Told.apply t = t := by
  induction jobs with
  | nil => rfl
  | cons job jobs ih =>
      obtain ⟨⟨name, value, rfl⟩, hrest⟩ := List.forall_mem_cons.mp h
      exact ih hrest

omit [Exprtk] [SystemClock] in
/-- A job made from assignments sets one of them. -/
theorem eq_of_mem_setVariableJobs {assignments : List (String × Option VariableValue)} {job : Job}
    (h : job ∈ setVariableJobs assignments) :
    ∃ name value, job = .postSetVariableEvent name (some value) ∧
      (name, some value) ∈ assignments := by
  induction assignments with
  | nil => cases h
  | cons assignment assignments ih =>
      obtain ⟨name, value⟩ := assignment
      cases value with
      | none => cases h
      | some value =>
          rcases List.mem_cons.mp h with rfl | h
          · exact ⟨name, value, rfl, List.mem_cons_self⟩
          · obtain ⟨name', value', rfl, hmem⟩ := ih h
            exact ⟨name', value', rfl, List.mem_cons_of_mem _ hmem⟩

/-- A grabber that starts is told everything at once, so that every view is tracked from the start.
-/
theorem tracks_startGrabbing {v : Worker.View exec allowed α} {kept : Told → α}
    (hfollows : Follows v tells kept) (defaultProfile : CoreConfiguration.Profile)
    (systemFileExists : Bool) {s : Receiver} (h : s.deviceGrabber = none) :
    Tracks v kept
      (startGrabbingIfSystemCoreConfigurationFileExists defaultProfile systemFileExists s) := by
  cases systemFileExists with
  | true => exact hfollows.tracks_start defaultProfile _ s.stopDeviceGrabber rfl
  | false => exact .of_none h

/-- **A view that follows the receiver tracks it**, whatever happens next. -/
theorem Tracks.step {v : Worker.View exec allowed α} {kept : Told → α}
    (hfollows : Follows v tells kept) {s : Receiver} (h : Tracks v kept s)
    (defaultProfile : CoreConfiguration.Profile) {i : Input}
    (hi : ∀ job ∈ i.jobs, allowed job ∧ tells job) : Tracks v kept (step defaultProfile s i) := by
  cases i with
  | connectConsoleUserServer path hasEndpoint => exact h.of_eq rfl rfl
  | consoleUserServerConnected =>
      unfold Receiver.step
      cases s.consoleUserServerClient with
      | none => exact h
      | some client => exact hfollows.tracks_start _ _ _ rfl
  | consoleUserServerClosed systemFileExists =>
      unfold Receiver.step
      cases s.consoleUserServerClient with
      | none => exact h
      | some client => exact tracks_startGrabbing hfollows defaultProfile systemFileExists rfl
  | systemPreferencesUpdated properties => exact h.enqueue hfollows rfl rfl hi
  | frontmostApplicationChanged application => exact h.enqueue hfollows rfl rfl hi
  | inputSourceChanged properties => exact h.enqueue hfollows rfl rfl hi
  | connectMultitouchExtension => exact h.of_eq rfl rfl
  | multitouchExtensionClosed =>
      unfold Receiver.step
      split_ifs
      · refine h.enqueue hfollows rfl (foldl_apply_setVariables ?_ _).symm hi
        intro job hjob
        obtain ⟨name, -, rfl⟩ := List.mem_map.mp hjob
        exact ⟨name, none, rfl⟩
      · exact h
  | setVariables assignments =>
      refine h.enqueue hfollows rfl (foldl_apply_setVariables ?_ _).symm hi
      intro job hjob
      obtain ⟨name, value, rfl, -⟩ := eq_of_mem_setVariableJobs hjob
      exact ⟨name, some value, rfl⟩
  | runJob c =>
      refine h.map rfl rfl (fun w hw => v.allows_runJob hw c) fun w hw hsettled => ?_
      rw [v.settled_runJob hw, hsettled]
  | coreConfigurationUpdated selectedProfile =>
      have hpost := hi _ List.mem_cons_self
      refine h.map rfl rfl (fun w hw => ?_) fun w hw hsettled => ?_
      · unfold Receiver.coreConfigurationUpdated
        split_ifs
        · exact Worker.Allows.enqueue (w := w.modify _) hw fun job hjob => (hi job hjob).1
        · exact hw
      · unfold Receiver.coreConfigurationUpdated
        split_ifs
        · rw [v.settled_enqueue, v.settled_modify (hfollows.current_congr _ _ rfl), hsettled]
          exact hfollows.apply_kept s.told _ hpost.2
        · exact hsettled
  | push e world =>
      refine h.map rfl rfl (fun w hw => hw) fun w _ hsettled => ?_
      rw [v.settled_modify (hfollows.current_congr _ _ (seen_push world e.2 w.state)), hsettled]
  | eraseFrontEvent =>
      refine h.map rfl rfl (fun w hw => hw) fun w _ hsettled => ?_
      rw [v.settled_modify (hfollows.current_congr _ _ rfl), hsettled]

/-- What one input keeps, a whole run keeps. -/
theorem Tracks.run {v : Worker.View exec allowed α} {kept : Told → α}
    (hfollows : Follows v tells kept)
    {s : Receiver} (h : Tracks v kept s) (defaultProfile : CoreConfiguration.Profile)
    {is : List Input} (his : ∀ i ∈ is, ∀ job ∈ i.jobs, allowed job ∧ tells job) :
    Tracks v kept (Machine.run (Receiver.step defaultProfile) s is) := by
  induction is generalizing s with
  | nil => exact h
  | cons i is ih =>
      obtain ⟨hi, his⟩ := List.forall_mem_cons.mp his
      exact ih (h.step hfollows defaultProfile hi) his

/-- A view that follows the receiver tracks it all along a run. -/
theorem Follows.tracks_run {v : Worker.View exec allowed α} {kept : Told → α}
    (hfollows : Follows v tells kept) (defaultProfile : CoreConfiguration.Profile)
    (systemFileExists : Bool) {is : List Input}
    (his : ∀ i ∈ is, ∀ job ∈ i.jobs, allowed job ∧ tells job) :
    Tracks v kept (run defaultProfile systemFileExists is) :=
  (tracks_startGrabbing hfollows defaultProfile systemFileExists (s := {}) rfl).run hfollows
    defaultProfile his

/-- The view of everything told follows the jobs, each as it is told. -/
theorem follows_toldView : Follows toldView (fun _ => True) id where
  current_congr g g' h := congrArg Prod.fst h
  tracks_start defaultProfile path s hnone := by
    intro w hw
    rw [startDeviceGrabber, hnone] at hw
    obtain rfl := Option.some.inj hw
    rw [told, startDeviceGrabber, hnone]
    exact ⟨fun _ _ => trivial, rfl⟩
  apply_kept t job _ := rfl

/-- A system variable follows the last properties told. -/
theorem follows_systemVariableView {name : String} (hname : name ∈ systemVariables) :
    Follows (systemVariableView hname) (fun _ => True) fun t =>
      (t.systemPreferencesProperties, systemVariable t.systemPreferencesProperties name) where
  current_congr g g' h := by
    have hproperties := congrArg (fun seen => seen.1.systemPreferencesProperties) h
    have hvariables := congrArg (fun seen => seen.2.2.lookup name) h
    exact Prod.ext hproperties hvariables
  tracks_start defaultProfile path s hnone := by
    intro w hw
    rw [startDeviceGrabber, hnone] at hw
    obtain rfl := Option.some.inj hw
    rw [told, startDeviceGrabber, hnone]
    refine ⟨?_, rfl⟩
    intro job hjob name value hsets
    subst hsets
    simp at hjob
  apply_kept t job hjob := by cases job <;> rfl

omit [Exprtk] [SystemClock] in
/-- The job does not set the variable. -/
def KeepsUnset (name : String) (job : Job) : Prop :=
  ∀ value, job ≠ .postSetVariableEvent name (some value)

/-- Any other variable stays unset as long as no job sets it. -/
theorem follows_variableView {name : String} (hname : name ∉ systemVariables) :
    Follows (variableView hname) (KeepsUnset name) fun _ => none where
  current_congr g g' h := congrArg (fun seen => seen.2.2.lookup name) h
  tracks_start defaultProfile path s hnone := by
    intro w hw
    rw [startDeviceGrabber, hnone] at hw
    obtain rfl := Option.some.inj hw
    exact ⟨fun _ _ => trivial, rfl⟩
  apply_kept t job hjob := by
    cases job with
    | postSetVariableEvent other value =>
        cases value with
        | none => exact ite_self none
        | some value => exact if_neg fun hother => hjob value (by rw [hother])
    | _ => rfl

/-! ### The settings of the function keys -/

/-- The function keys have been updated with the current settings, or that job is to be run. -/
def FnFunctionKeysSound (s : Receiver) : Prop :=
  ∀ w, s.deviceGrabber = some w →
    w.state.fnFunctionKeys = some (w.state.selectedProfile, w.state.systemPreferencesProperties) ∨
      ∃ value, .setSystemPreferencesProperties value ∈ w.jobs

omit [Exprtk] [SystemClock] in
theorem fnFunctionKeysSound_start (defaultProfile : CoreConfiguration.Profile) (path : String)
    {s : Receiver} (h : s.deviceGrabber = none) :
    (startDeviceGrabber defaultProfile path s).FnFunctionKeysSound := by
  intro w hw
  rw [startDeviceGrabber, h] at hw
  obtain rfl := Option.some.inj hw
  exact .inr ⟨_, List.mem_cons_self⟩

omit [Exprtk] [SystemClock] in
theorem fnFunctionKeysSound_startGrabbing (defaultProfile : CoreConfiguration.Profile)
    (systemFileExists : Bool) {s : Receiver} (h : s.deviceGrabber = none) :
    (startGrabbingIfSystemCoreConfigurationFileExists defaultProfile systemFileExists
      s).FnFunctionKeysSound := by
  cases systemFileExists with
  | true => exact fnFunctionKeysSound_start defaultProfile _ (s := s.stopDeviceGrabber) rfl
  | false =>
      intro w hw
      cases h.symm.trans hw

omit [Exprtk] [SystemClock] in
/-- Only two things change the settings of the function keys. -/
theorem FnFunctionKeysSound.map {s s' : Receiver} (h : s.FnFunctionKeysSound)
    {f : Worker Grabber Job → Worker Grabber Job}
    (hgrabber : s'.deviceGrabber = s.deviceGrabber.map f)
    (hkeeps : ∀ w,
      (f w).state.fnFunctionKeys = some ((f w).state.selectedProfile,
          (f w).state.systemPreferencesProperties) ∨
        ((f w).state.fnFunctionKeys = w.state.fnFunctionKeys ∧
          (f w).state.selectedProfile = w.state.selectedProfile ∧
          (f w).state.systemPreferencesProperties = w.state.systemPreferencesProperties ∧
          ∀ value, .setSystemPreferencesProperties value ∈ w.jobs →
            .setSystemPreferencesProperties value ∈ (f w).jobs)) :
    s'.FnFunctionKeysSound := by
  intro w hw
  rw [hgrabber] at hw
  obtain ⟨w', hw', rfl⟩ := Option.map_eq_some_iff.mp hw
  rcases hkeeps w' with hsound | ⟨hkeys, hprofile, hproperties, hjobs⟩
  · exact .inl hsound
  · rw [hkeys, hprofile, hproperties]
    exact (h w' hw').imp_right fun ⟨value, hvalue⟩ => ⟨value, hjobs value hvalue⟩

omit [Exprtk] [SystemClock] in
theorem FnFunctionKeysSound.enqueue {s s' : Receiver} (h : s.FnFunctionKeysSound)
    {jobs : List Job} (hgrabber : s'.deviceGrabber = s.deviceGrabber.map (·.enqueue jobs)) :
    s'.FnFunctionKeysSound :=
  h.map hgrabber fun _ => .inr ⟨rfl, rfl, rfl, fun _ => List.mem_append_left _⟩

/-- No input makes the fn function keys of the grabber disagree with its configuration. -/
theorem FnFunctionKeysSound.step {s : Receiver} (h : s.FnFunctionKeysSound)
    (defaultProfile : CoreConfiguration.Profile) (i : Input) :
    (step defaultProfile s i).FnFunctionKeysSound := by
  cases i with
  | connectConsoleUserServer path hasEndpoint => exact h
  | consoleUserServerConnected =>
      unfold Receiver.step
      cases s.consoleUserServerClient with
      | none => exact h
      | some client => exact fnFunctionKeysSound_start defaultProfile _ rfl
  | consoleUserServerClosed systemFileExists =>
      unfold Receiver.step
      cases s.consoleUserServerClient with
      | none => exact h
      | some client => exact fnFunctionKeysSound_startGrabbing defaultProfile systemFileExists rfl
  | systemPreferencesUpdated properties => exact h.enqueue rfl
  | frontmostApplicationChanged application => exact h.enqueue rfl
  | inputSourceChanged properties => exact h.enqueue rfl
  | connectMultitouchExtension => exact h
  | multitouchExtensionClosed =>
      unfold Receiver.step
      split_ifs
      · exact h.enqueue rfl
      · exact h
  | setVariables assignments => exact h.enqueue rfl
  | runJob c =>
      refine h.map rfl fun w => ?_
      obtain ⟨g, jobs⟩ := w
      cases jobs with
      | nil => exact .inr ⟨rfl, rfl, rfl, fun _ => id⟩
      | cons job jobs =>
          have htail (value : SystemPreferencesProperties)
              (hne : job ≠ .setSystemPreferencesProperties value)
              (hmem : .setSystemPreferencesProperties value ∈ job :: jobs) :
              .setSystemPreferencesProperties value ∈ jobs ++ (exec c job g).2 :=
            List.mem_append_left _ (List.mem_of_ne_of_mem hne.symm hmem)
          cases job with
          | setSystemPreferencesProperties value => exact .inl rfl
          | _ => exact .inr ⟨rfl, rfl, rfl, fun value => htail value nofun⟩
  | coreConfigurationUpdated selectedProfile =>
      refine h.map rfl fun w => ?_
      unfold Receiver.coreConfigurationUpdated
      split_ifs
      · exact .inl rfl
      · exact .inr ⟨rfl, rfl, rfl, fun _ => id⟩
  | push e world => exact h.map rfl fun w => .inr ⟨rfl, rfl, rfl, fun _ => id⟩
  | eraseFrontEvent => exact h.map rfl fun w => .inr ⟨rfl, rfl, rfl, fun _ => id⟩

/-! ### Running the jobs -/

/-- The jobs for the system preferences enqueue another one. -/
def Job.rank : Job → ℕ
  | .setSystemPreferencesProperties _ => 2
  | _ => 1

/-- A job queues only jobs of a smaller rank. -/
theorem shrinks_exec : Worker.Shrinks exec Job.rank where
  rank_pos job := by
    cases job with
    | setSystemPreferencesProperties value => exact Nat.zero_lt_succ 1
    | _ => exact Nat.zero_lt_one
  rank_spawned c job g := by cases job <;> exact Nat.le_refl _

/-- Inputs that only run jobs are jobs of the grabber. -/
theorem run_runJobs (defaultProfile : CoreConfiguration.Profile) (s : Receiver)
    (cs : List Moment) :
    Machine.run (step defaultProfile) s (cs.map .runJob) =
      { s with deviceGrabber := s.deviceGrabber.map (Worker.runJobs exec cs) } := by
  induction cs generalizing s with
  | nil =>
      obtain ⟨_, _, _, _, _, _, deviceGrabber⟩ := s
      cases deviceGrabber <;> rfl
  | cons c cs ih =>
      rw [List.map_cons, Machine.run_cons, ih]
      obtain ⟨_, _, _, _, _, _, deviceGrabber⟩ := s
      cases deviceGrabber <;> rfl

/-- The device grabber once its jobs have been run: it has become what its views come to. -/
theorem exists_drained {defaultProfile : CoreConfiguration.Profile} {systemFileExists : Bool}
    {is : List Input} {w : Worker Grabber Job}
    (hw : (run defaultProfile systemFileExists is).deviceGrabber = some w) {cs : List Moment}
    (hcs : w.load Job.rank ≤ cs.length) :
    ∃ w', (run defaultProfile systemFileExists (is ++ cs.map .runJob)).deviceGrabber = some w' ∧
      w'.jobs = [] ∧
      (run defaultProfile systemFileExists (is ++ cs.map .runJob)).told =
        (run defaultProfile systemFileExists is).told := by
  have hrun : run defaultProfile systemFileExists (is ++ cs.map .runJob) =
      { run defaultProfile systemFileExists is with
        deviceGrabber := some (w.runJobs exec cs) } := by
    rw [run, Machine.run_append, run_runJobs]
    exact congrArg (fun grabber => { run defaultProfile systemFileExists is with
      deviceGrabber := Option.map (Worker.runJobs exec cs) grabber }) hw
  rw [hrun]
  exact ⟨w.runJobs exec cs, rfl, Worker.jobs_runJobs shrinks_exec hcs, rfl⟩

/-- A view that follows the receiver has become what the receiver keeps. -/
theorem current_of_jobs_eq_nil {v : Worker.View exec allowed α} {kept : Told → α} {s : Receiver}
    (h : Tracks v kept s) {w : Worker Grabber Job} (hw : s.deviceGrabber = some w)
    (hjobs : w.jobs = []) : v.current w.state = kept s.told := by
  rw [← v.settled_of_jobs_eq_nil hjobs]
  exact (h w hw).2

omit [SystemClock] in
/-- Running jobs brings no job of its own into a run. -/
theorem jobs_runJob {P : Job → Prop} {is : List Input} (h : ∀ i ∈ is, ∀ job ∈ i.jobs, P job)
    (cs : List Moment) : ∀ i ∈ is ++ cs.map .runJob, ∀ job ∈ i.jobs, P job := by
  intro i hi
  rcases List.mem_append.mp hi with hi | hi
  · exact h i hi
  · obtain ⟨c, -, rfl⟩ := List.mem_map.mp hi
    exact nofun

/-- **The device grabber agrees with the receiver** once its jobs have been run, whatever was
received and however often it was restarted; and the manipulators of the function keys are those of
the current profile and system preferences. -/
theorem agrees_of_run {defaultProfile : CoreConfiguration.Profile} {systemFileExists : Bool}
    {is : List Input} {w : Worker Grabber Job}
    (hw : (run defaultProfile systemFileExists is).deviceGrabber = some w) {cs : List Moment}
    (hcs : w.load Job.rank ≤ cs.length) :
    let s := run defaultProfile systemFileExists (is ++ cs.map .runJob)
    ∃ w', s.deviceGrabber = some w' ∧ w'.jobs = [] ∧
      w'.state.systemPreferencesProperties = s.systemPreferencesProperties ∧
      w'.state.environment.frontmostApplication = s.frontmostApplication ∧
      w'.state.environment.inputSourceProperties = s.inputSourceProperties ∧
      w'.state.fnFunctionKeys =
        some (w'.state.selectedProfile, s.systemPreferencesProperties) := by
  obtain ⟨w', hw', hjobs, -⟩ := exists_drained hw hcs
  have htracks : Tracks toldView id
      (run defaultProfile systemFileExists (is ++ cs.map .runJob)) :=
    follows_toldView.tracks_run _ _ fun _ _ _ _ => ⟨trivial, trivial⟩
  have hsound : (run defaultProfile systemFileExists (is ++ cs.map .runJob)).FnFunctionKeysSound :=
    Machine.run_invariant (fun s i h => h.step defaultProfile i)
      (fnFunctionKeysSound_startGrabbing defaultProfile systemFileExists rfl) _
  have htold := current_of_jobs_eq_nil htracks hw' hjobs
  have hproperties := congrArg Told.systemPreferencesProperties htold
  refine ⟨w', hw', hjobs, hproperties, congrArg Told.frontmostApplication htold,
    congrArg Told.inputSourceProperties htold, ?_⟩
  rcases hsound w' hw' with hkeys | ⟨value, hvalue⟩
  · rw [hkeys]
    exact congrArg (fun properties => some (w'.state.selectedProfile, properties)) hproperties
  · rw [hjobs] at hvalue
    cases hvalue

/-- **The variables of the system preferences** are those of the receiver once the jobs have been
run, unless a message sets one of them. -/
theorem systemVariables_of_run {defaultProfile : CoreConfiguration.Profile}
    {systemFileExists : Bool} {is : List Input}
    (his : ∀ assignments, .setVariables assignments ∈ is →
      ∀ assignment ∈ assignments, assignment.1 ∉ systemVariables) {w : Worker Grabber Job}
    (hw : (run defaultProfile systemFileExists is).deviceGrabber = some w) {cs : List Moment}
    (hcs : w.load Job.rank ≤ cs.length) {name : String} (hname : name ∈ systemVariables) :
    let s := run defaultProfile systemFileExists (is ++ cs.map .runJob)
    ∃ w', s.deviceGrabber = some w' ∧ w'.jobs = [] ∧
      w'.state.variable name = systemVariable s.systemPreferencesProperties name := by
  obtain ⟨w', hw', hjobs, -⟩ := exists_drained hw hcs
  have hkeeps : ∀ i ∈ is, ∀ job ∈ i.jobs, KeepsSystemVariables job ∧ True := by
    intro i hi job hjob
    refine ⟨?_, trivial⟩
    rintro other value rfl
    cases i with
    | setVariables assignments =>
        obtain ⟨_, _, hsets, hmem⟩ := eq_of_mem_setVariableJobs hjob
        cases hsets
        exact his assignments hi _ hmem
    | multitouchExtensionClosed =>
        obtain ⟨_, hmem, hsets⟩ := List.mem_map.mp hjob
        cases hsets
        exact notMem_systemVariables other hmem
    | _ => simp [Input.jobs] at hjob
  have htracks := (follows_systemVariableView hname).tracks_run defaultProfile systemFileExists
    (jobs_runJob hkeeps cs)
  exact ⟨w', hw', hjobs, congrArg Prod.snd (current_of_jobs_eq_nil htracks hw' hjobs)⟩

/-- The variables a client leaves behind are unset, and the others keep their value. -/
theorem foldl_unset {name : String} (hname : name ∉ systemVariables) (names : List String)
    (x : Option VariableValue) :
    (names.map fun other => Job.postSetVariableEvent other none).foldl (variableView hname).apply
      x = if name ∈ names then none else x := by
  induction names generalizing x with
  | nil => rfl
  | cons other names ih =>
      rw [List.map_cons, List.foldl_cons, ih]
      show (if name ∈ names then none else if other = name then none else x) = _
      by_cases hother : other = name
      · simp [hother]
      · simp [hother, Ne.symm hother]

/-- **A finger count does not outlive the multitouch extension**: since it has gone, the variable is
unset, unless a message sets it again. -/
theorem fingerCount_of_run {defaultProfile : CoreConfiguration.Profile} {systemFileExists : Bool}
    {before after : List Input}
    (hopen : (run defaultProfile systemFileExists before).multitouchExtensionClient = true)
    {name : String} (hname : name ∈ multitouchExtensionVariables)
    (hafter : ∀ assignments, .setVariables assignments ∈ after →
      ∀ assignment ∈ assignments, assignment.1 ≠ name) {w : Worker Grabber Job}
    (hw : (run defaultProfile systemFileExists
      (before ++ .multitouchExtensionClosed :: after)).deviceGrabber = some w) {cs : List Moment}
    (hcs : w.load Job.rank ≤ cs.length) :
    let s := run defaultProfile systemFileExists
      ((before ++ .multitouchExtensionClosed :: after) ++ cs.map .runJob)
    ∃ w', s.deviceGrabber = some w' ∧ w'.jobs = [] ∧ w'.state.variable name = none := by
  have hsystem := notMem_systemVariables name hname
  obtain ⟨w', hw', hjobs, -⟩ := exists_drained hw hcs
  have hclosed : Tracks (variableView hsystem) (fun _ => none)
      (step defaultProfile (run defaultProfile systemFileExists before)
        .multitouchExtensionClosed) := by
    intro w hw
    rw [step, if_pos hopen] at hw
    obtain ⟨w, -, rfl⟩ := Option.map_eq_some_iff.mp hw
    refine ⟨fun _ _ => trivial, ?_⟩
    rw [Worker.View.settled_enqueue]
    exact (foldl_unset hsystem _ _).trans (if_pos hname)
  have hunset : ∀ i ∈ after, ∀ job ∈ i.jobs, True ∧ KeepsUnset name job := by
    intro i hi job hjob
    refine ⟨trivial, ?_⟩
    rintro value rfl
    cases i with
    | setVariables assignments =>
        obtain ⟨_, _, hsets, hmem⟩ := eq_of_mem_setVariableJobs hjob
        cases hsets
        exact hafter assignments hi _ hmem rfl
    | multitouchExtensionClosed =>
        obtain ⟨_, -, hsets⟩ := List.mem_map.mp hjob
        cases hsets
    | _ => simp [Input.jobs] at hjob
  have htracks := hclosed.run (follows_variableView hsystem) defaultProfile (jobs_runJob hunset cs)
  have hrun : run defaultProfile systemFileExists
      ((before ++ .multitouchExtensionClosed :: after) ++ cs.map .runJob) =
      Machine.run (step defaultProfile) (step defaultProfile
        (run defaultProfile systemFileExists before) .multitouchExtensionClosed)
          (after ++ cs.map .runJob) := by
    rw [List.append_assoc, run, Machine.run_append]
    rfl
  rw [← hrun] at htracks
  exact ⟨w', hw', hjobs, current_of_jobs_eq_nil htracks hw' hjobs⟩

/-! ### The console user server client -/

/-- The device grabber works for the client. -/
def WorksFor (s : Receiver) (client : ConsoleUserServerClient) (w : Worker Grabber Job) : Prop :=
  s.deviceGrabber = some w ∧ w.state.consoleUserServerClient = some client.id

/-- Which client the device grabber works for, and with which configuration. -/
structure Bound (s : Receiver) : Prop where
  id_lt : ∀ client, s.consoleUserServerClient = some client → client.id < s.clients
  grabber_lt : ∀ w id, s.deviceGrabber = some w → w.state.consoleUserServerClient = some id →
    id < s.clients
  connected_iff : ∀ client, s.consoleUserServerClient = some client →
    (client.connected = true ↔ ∃ w, s.WorksFor client w)
  watches : ∀ client w, s.consoleUserServerClient = some client → s.WorksFor client w →
    configurationView.settled w = some client.userCoreConfigurationFilePath

/-- The device grabber is changed in another way. -/
theorem Bound.map {s s' : Receiver} (h : s.Bound) {f : Worker Grabber Job → Worker Grabber Job}
    (hgrabber : s'.deviceGrabber = s.deviceGrabber.map f)
    (hclient : s'.consoleUserServerClient = s.consoleUserServerClient)
    (hclients : s'.clients = s.clients)
    (hkeeps : ∀ w, (f w).state.consoleUserServerClient = w.state.consoleUserServerClient ∧
      configurationView.settled (f w) = configurationView.settled w) : s'.Bound := by
  have hworks (client : ConsoleUserServerClient) (w : Worker Grabber Job) :
      s'.WorksFor client w ↔ ∃ w', s.WorksFor client w' ∧ f w' = w := by
    unfold WorksFor
    rw [hgrabber, Option.map_eq_some_iff]
    constructor
    · rintro ⟨⟨w', hw', rfl⟩, hid⟩
      exact ⟨w', ⟨hw', (hkeeps w').1 ▸ hid⟩, rfl⟩
    · rintro ⟨w', ⟨hw', hid⟩, rfl⟩
      exact ⟨⟨w', hw', rfl⟩, (hkeeps w').1.trans hid⟩
  constructor
  · rw [hclient, hclients]
    exact h.id_lt
  · intro w id hw hid
    rw [hgrabber] at hw
    obtain ⟨w', hw', rfl⟩ := Option.map_eq_some_iff.mp hw
    rw [hclients]
    exact h.grabber_lt w' id hw' ((hkeeps w').1 ▸ hid)
  · intro client hsome
    rw [h.connected_iff client (hclient ▸ hsome)]
    constructor
    · rintro ⟨w, hw⟩
      exact ⟨f w, (hworks client (f w)).mpr ⟨w, hw, rfl⟩⟩
    · rintro ⟨w, hw⟩
      obtain ⟨w', hw', -⟩ := (hworks client w).mp hw
      exact ⟨w', hw'⟩
  · intro client w hsome hw
    obtain ⟨w', hw', rfl⟩ := (hworks client w).mp hw
    exact (hkeeps w').2.trans (h.watches client w' (hclient ▸ hsome) hw')

theorem Bound.enqueue {s s' : Receiver} (h : s.Bound) {jobs : List Job}
    (hgrabber : s'.deviceGrabber = s.deviceGrabber.map (·.enqueue jobs))
    (hclient : s'.consoleUserServerClient = s.consoleUserServerClient)
    (hclients : s'.clients = s.clients) (hjobs : ∀ path, .start path ∉ jobs) : s'.Bound := by
  have hkeeps (x : Option String) : jobs.foldl configurationView.apply x = x := by
    clear hgrabber
    induction jobs generalizing x with
    | nil => rfl
    | cons job jobs ih =>
        have hjob : configurationView.apply x job = x := by
          cases job with
          | start path => exact absurd List.mem_cons_self (hjobs path)
          | _ => rfl
        rw [List.foldl_cons, hjob]
        exact ih (fun path hpath => hjobs path (List.mem_cons_of_mem _ hpath)) x
  refine h.map hgrabber hclient hclients fun w => ⟨rfl, ?_⟩
  rw [Worker.View.settled_enqueue, hkeeps]

omit [Exprtk] [SystemClock] in
/-- The client of a new device grabber. -/
theorem consoleUserServerClient_start {defaultProfile : CoreConfiguration.Profile} {path : String}
    {s : Receiver} (h : s.deviceGrabber = none) {w : Worker Grabber Job}
    (hw : (startDeviceGrabber defaultProfile path s).deviceGrabber = some w) :
    w.state.consoleUserServerClient = s.consoleUserServerClient.map (·.id) := by
  rw [startDeviceGrabber, h] at hw
  obtain rfl := Option.some.inj hw
  rfl

omit [Exprtk] [SystemClock] in
/-- After a stop there is no grabber. -/
theorem stopDeviceGrabber_deviceGrabber (s : Receiver) : s.stopDeviceGrabber.deviceGrabber = none :=
  rfl

/-- Without a client, nothing else is to be said. -/
theorem bound_of_none {s : Receiver} (hclient : s.consoleUserServerClient = none)
    (hgrabber : ∀ w id, s.deviceGrabber = some w → w.state.consoleUserServerClient = some id →
      id < s.clients) : s.Bound := by
  have hnot (client : ConsoleUserServerClient) : s.consoleUserServerClient ≠ some client := by
    rw [hclient]
    exact nofun
  exact ⟨fun client h => absurd h (hnot client), hgrabber, fun client h => absurd h (hnot client),
    fun client _ h => absurd h (hnot client)⟩

/-- A grabber that starts while there is no client works for none. -/
theorem bound_startGrabbing (defaultProfile : CoreConfiguration.Profile) (systemFileExists : Bool)
    {s : Receiver} (hgrabber : s.deviceGrabber = none)
    (hclient : s.consoleUserServerClient = none) :
    (startGrabbingIfSystemCoreConfigurationFileExists defaultProfile systemFileExists s).Bound := by
  cases systemFileExists with
  | true =>
      have hnew : (startDeviceGrabber defaultProfile systemCoreConfigurationFilePath
          s.stopDeviceGrabber).Bound := by
        refine bound_of_none hclient fun w id hw hid => ?_
        rw [consoleUserServerClient_start s.stopDeviceGrabber_deviceGrabber hw] at hid
        have hnone : s.stopDeviceGrabber.consoleUserServerClient = none := hclient
        rw [hnone] at hid
        cases hid
      exact hnew
  | false =>
      refine bound_of_none (s := s) hclient fun w id hw hid => ?_
      cases hgrabber.symm.trans hw

/-- No device grabber works for a client that is new. -/
theorem Bound.newClient {s : Receiver} (h : s.Bound) (client : ConsoleUserServerClient)
    (hid : client.id = s.clients) (hconnected : client.connected = false) :
    Bound { s with consoleUserServerClient := some client, clients := s.clients + 1 } := by
  have hnot (w : Worker Grabber Job) (hw : s.deviceGrabber = some w)
      (hwid : w.state.consoleUserServerClient = some client.id) : False :=
    (h.grabber_lt w client.id hw hwid).ne hid
  constructor
  · intro client' hclient
    obtain rfl : client = client' := Option.some.inj hclient
    exact hid ▸ Nat.lt_succ_self _
  · intro w id hw hwid
    exact Nat.lt_succ_of_lt (h.grabber_lt w id hw hwid)
  · intro client' hclient
    obtain rfl : client = client' := Option.some.inj hclient
    rw [hconnected]
    exact iff_of_false Bool.false_ne_true fun ⟨w, hw, hwid⟩ => hnot w hw hwid
  · rintro client' w hclient ⟨hw, hwid⟩
    obtain rfl : client = client' := Option.some.inj hclient
    exact (hnot w hw hwid).elim

/-- Every input keeps the client and its device grabber together. -/
theorem Bound.step {s : Receiver} (h : s.Bound) (defaultProfile : CoreConfiguration.Profile)
    (i : Input) : (step defaultProfile s i).Bound := by
  cases i with
  | connectConsoleUserServer path hasEndpoint =>
      cases hasEndpoint with
      | true => exact h.newClient { id := s.clients, userCoreConfigurationFilePath := path } rfl rfl
      | false =>
          refine bound_of_none (s := { s with
            consoleUserServerClient := none, clients := s.clients + 1 }) rfl fun w id hw hid => ?_
          exact Nat.lt_succ_of_lt (h.grabber_lt w id hw hid)
  | consoleUserServerConnected =>
      unfold Receiver.step
      cases hsome : s.consoleUserServerClient with
      | none => exact h
      | some client =>
          have hlt := h.id_lt client hsome
          refine ⟨?_, ?_, ?_, ?_⟩
          · intro client' hclient
            obtain rfl := Option.some.inj hclient
            exact hlt
          · intro w id hw hid
            obtain rfl := Option.some.inj hw
            obtain rfl := Option.some.inj hid
            exact hlt
          · intro client' hclient
            obtain rfl := Option.some.inj hclient
            exact iff_of_true rfl ⟨_, rfl, rfl⟩
          · rintro client' w hclient ⟨hw, -⟩
            obtain rfl := Option.some.inj hclient
            obtain rfl := Option.some.inj hw
            rfl
  | consoleUserServerClosed systemFileExists =>
      unfold Receiver.step
      cases s.consoleUserServerClient with
      | none => exact h
      | some client => exact bound_startGrabbing defaultProfile systemFileExists rfl rfl
  | systemPreferencesUpdated properties => exact h.enqueue rfl rfl rfl (by simp)
  | frontmostApplicationChanged application => exact h.enqueue rfl rfl rfl (by simp)
  | inputSourceChanged properties => exact h.enqueue rfl rfl rfl (by simp)
  | connectMultitouchExtension => exact ⟨h.id_lt, h.grabber_lt, h.connected_iff, h.watches⟩
  | multitouchExtensionClosed =>
      unfold Receiver.step
      split_ifs
      · refine h.enqueue rfl rfl rfl fun path hpath => ?_
        obtain ⟨_, -, hstart⟩ := List.mem_map.mp hpath
        cases hstart
      · exact h
  | setVariables assignments =>
      refine h.enqueue rfl rfl rfl fun path hpath => ?_
      obtain ⟨_, _, hstart, -⟩ := eq_of_mem_setVariableJobs hpath
      cases hstart
  | runJob c =>
      refine h.map rfl rfl rfl fun w =>
        ⟨?_, configurationView.settled_runJob (fun _ _ => trivial) c⟩
      obtain ⟨g, jobs⟩ := w
      cases jobs with
      | nil => rfl
      | cons job jobs => cases job <;> rfl
  | coreConfigurationUpdated selectedProfile =>
      refine h.map rfl rfl rfl fun w => ?_
      unfold Receiver.coreConfigurationUpdated
      split_ifs
      · exact ⟨rfl, configurationView.settled_enqueue _ _⟩
      · exact ⟨rfl, rfl⟩
  | push e world => exact h.map rfl rfl rfl fun w => ⟨rfl, rfl⟩
  | eraseFrontEvent => exact h.map rfl rfl rfl fun w => ⟨rfl, rfl⟩

/-- **A client has connected exactly when the device grabber works for it**, and then that watches
the configuration file of this client. -/
theorem connected_iff_of_run {defaultProfile : CoreConfiguration.Profile}
    {systemFileExists : Bool} {is : List Input} {client : ConsoleUserServerClient}
    (hclient : (run defaultProfile systemFileExists is).consoleUserServerClient = some client) :
    let s := run defaultProfile systemFileExists is
    (client.connected = true ↔ ∃ w, s.WorksFor client w) ∧
      ∀ w, s.WorksFor client w →
        configurationView.settled w = some client.userCoreConfigurationFilePath := by
  have hbound : (run defaultProfile systemFileExists is).Bound :=
    Machine.run_invariant (fun s i h => h.step defaultProfile i)
      (bound_startGrabbing defaultProfile systemFileExists (s := {}) rfl rfl) is
  exact ⟨hbound.connected_iff client hclient, fun w => hbound.watches client w hclient⟩

end

/-! ### Runs -/

section

local instance : Exprtk := Exprtk.singleVariable

local instance : SystemClock := ⟨fun _ => 0⟩

/-- The system configuration is replaced by that of a user. -/
def userConnects : List Input := [
  .systemPreferencesUpdated ⟨true, false⟩,
  .frontmostApplicationChanged { bundleIdentifier := some "com.apple.finder" },
  .connectMultitouchExtension,
  .connectConsoleUserServer "/Users/user/.config/karabiner/karabiner.json" true,
  .consoleUserServerConnected,
  .setVariables [("multitouch_extension_finger_count_total", some (.integer 2))]]

/-- The moments of some jobs. -/
def moments (n : ℕ) : List Moment := List.replicate n ⟨fun _ => 0, .initial⟩

/-- `agrees_of_run` after the device grabber has been restarted. -/
theorem agrees_of_run_userConnects :
    let s := run .bare true (userConnects ++ (moments 6).map .runJob)
    ∃ w', s.deviceGrabber = some w' ∧ w'.jobs = [] ∧
      w'.state.systemPreferencesProperties = s.systemPreferencesProperties ∧
      w'.state.environment.frontmostApplication = s.frontmostApplication ∧
      w'.state.environment.inputSourceProperties = s.inputSourceProperties ∧
      w'.state.fnFunctionKeys =
        some (w'.state.selectedProfile, s.systemPreferencesProperties) :=
  @agrees_of_run _ _ .bare true userConnects _ rfl _ (by decide)

/-- `systemVariables_of_run` after the device grabber has been restarted. -/
theorem systemVariables_of_run_userConnects :
    let s := run .bare true (userConnects ++ (moments 6).map .runJob)
    ∃ w', s.deviceGrabber = some w' ∧ w'.jobs = [] ∧
      w'.state.variable "system.scroll_direction_is_natural" =
        systemVariable s.systemPreferencesProperties "system.scroll_direction_is_natural" := by
  refine @systemVariables_of_run _ _ .bare true userConnects ?_ _ rfl _ (by decide) _ (by decide)
  intro assignments hassignments
  obtain rfl : assignments =
      [("multitouch_extension_finger_count_total", some (.integer 2))] := by
    simpa [userConnects] using hassignments
  decide

/-- What comes after the multitouch extension has gone. -/
def modeChanges : List Input := [
  .setVariables [("mode", some (.integer 1))],
  .frontmostApplicationChanged { bundleIdentifier := some "com.apple.Safari" }]

/-- `fingerCount_of_run` for a finger count of the user's multitouch extension, with messages that
are received after that. -/
theorem fingerCount_of_run_userConnects :
    let s := run .bare true
      ((userConnects ++ .multitouchExtensionClosed :: modeChanges) ++ (moments 30).map .runJob)
    ∃ w', s.deviceGrabber = some w' ∧ w'.jobs = [] ∧
      w'.state.variable "multitouch_extension_finger_count_total" = none := by
  refine @fingerCount_of_run _ _ .bare true userConnects modeChanges rfl _ (by decide) ?_ _ rfl _
    (by decide)
  intro assignments hassignments
  obtain rfl : assignments = [("mode", some (.integer 1))] := by
    simpa [modeChanges] using hassignments
  decide

/-- `connected_iff_of_run` for the client of the user. -/
theorem connected_iff_of_run_userConnects :
    let s := run .bare true userConnects
    let client : ConsoleUserServerClient := {
      id := 0
      userCoreConfigurationFilePath := "/Users/user/.config/karabiner/karabiner.json"
      connected := true }
    s.consoleUserServerClient = some client ∧
      (client.connected = true ↔ ∃ w, s.WorksFor client w) ∧
      ∀ w, s.WorksFor client w →
        configurationView.settled w = some client.userCoreConfigurationFilePath :=
  ⟨rfl, @connected_iff_of_run _ _ .bare true userConnects _ rfl⟩

end

end Receiver

end Karabiner
