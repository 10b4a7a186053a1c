import Karabiner.CoreConfiguration.CoreConfiguration
import Karabiner.Library.Machine
import Karabiner.Library.Worker
import Mathlib.Data.Finset.Basic
import Mathlib.Data.List.Chain

/-!
# The monitor of the configuration file

`share/monitor/configuration_monitor.hpp` and `vendor/include/pqrs/osx/file_monitor.hpp`.  The
configuration comes from the user's `karabiner.json`, or from the system's while that does not
exist.  The file monitor keeps what it last read of both files.  When macOS tells it that something
happened to one of them, it reads the file again and signals the change in a function of its own;
the configuration monitor then reads the file once more.  Both work in the thread of the dispatcher,
and the files may change at any moment in between.

`files` is what is there, `fileBodies` what the file monitor has read, `unnoticed` the changes that
macOS has not told of yet, and `documents` everything that the configuration monitor has loaded.
Symbolic links are left out, so macOS tells of a file under the path that the monitor knows.

* `configuration_of_run` — **at rest, the configuration is that of the file**, if that can be
  loaded, in every run without one of the races that `Noticed` and `UpToDate` name.
* `updates_run` — what observers are told: only the first configuration may be one that could not be
  loaded, none repeats the one before, and the last is the current one.
* `crashed_iff` — when an exception ends the process.
-/

namespace Karabiner

open CoreConfiguration (ErrorHandling NaturalSort)

/-! ### The file monitor -/

/-- A file: what is in it, and whether root or the expected user owns it. -/
structure ConfigurationFile where
  body : String
  validOwner : Bool
deriving DecidableEq, Repr

/-- What macOS tells of a path.  `rootChanged` also stands for events that were dropped. -/
structure FsEvent where
  path : String
  rootChanged : Bool := false
  ownEvent : Bool := false
deriving DecidableEq, Repr

/-- The functions that the two monitors put into the queue of the dispatcher. -/
inductive ConfigurationMonitorJob
  | registerStream
  | streamCallback (events : List FsEvent)
  | fileChanged (path : String)
  | coreConfigurationUpdated (c : CoreConfiguration)

/-- `configuration_monitor` with its `file_monitor`, the files and the configurations that observers
have been told. -/
structure ConfigurationMonitor where
  userPath : String
  systemPath : String
  errorHandling : ErrorHandling
  files : String → Option ConfigurationFile
  unnoticed : Finset String := ∅
  stream : Bool := false
  /-- The source keeps the body of the file alone. -/
  fileBodies : String → Option (Option ConfigurationFile) := fun _ => none
  streamFilePaths : Finset String := ∅
  documents : List (Option Json) := []
  coreConfiguration : Option CoreConfiguration := none
  updates : List CoreConfiguration := []
  crashed : Bool := false

namespace ConfigurationMonitor

open ConfigurationMonitorJob

/-- `files_`. -/
def targets (s : ConfigurationMonitor) : List String := [s.userPath, s.systemPath]

/-- `update_file_bodies`, and whether the body has changed. -/
def updateFileBodies (path : String) (s : ConfigurationMonitor) : ConfigurationMonitor × Bool :=
  if (s.fileBodies path).map (·.map ConfigurationFile.body) =
      some ((s.files path).map ConfigurationFile.body) then (s, false)
  else ({ s with fileBodies := Function.update s.fileBodies path (some (s.files path)) }, true)

/-- Read a file again, and signal a change. -/
def notice (signal : Bool) (path : String) (s : ConfigurationMonitor) :
    ConfigurationMonitor × List ConfigurationMonitorJob :=
  let (s, updated) := s.updateFileBodies path
  (s, if updated && signal then [fileChanged path] else [])

/-- Do one thing after another. -/
def sequence {α : Type}
    (f : α → ConfigurationMonitor → ConfigurationMonitor × List ConfigurationMonitorJob) :
    List α → ConfigurationMonitor → ConfigurationMonitor × List ConfigurationMonitorJob
  | [], s => (s, [])
  | x :: xs, s => ((sequence f xs (f x s).1).1, (f x s).2 ++ (sequence f xs (f x s).1).2)

/-- `register_stream`.  It reads all files, so a new stream owes no event. -/
def runRegisterStream (s : ConfigurationMonitor) :
    ConfigurationMonitor × List ConfigurationMonitorJob :=
  if s.stream then (s, [])
  else
    let (s', jobs) := sequence (notice true) s.targets s
    ({ s' with stream := true, unnoticed := ∅ }, jobs)

/-- The file in `files_` that an event is about; a path that is gone must have been seen before. -/
def changedFilePath (path : String) (s : ConfigurationMonitor) :
    ConfigurationMonitor × Option String :=
  if (s.files path).isSome then
    if path ∈ s.targets then
      ({ s with streamFilePaths := insert path s.streamFilePaths }, some path)
    else (s, none)
  else if path ∈ s.streamFilePaths then
    ({ s with streamFilePaths := s.streamFilePaths.erase path }, some path)
  else (s, none)

/-- The body of the loop of `stream_callback`. -/
def handleEvent (e : FsEvent) (s : ConfigurationMonitor) :
    ConfigurationMonitor × List ConfigurationMonitorJob :=
  if e.rootChanged then { s with stream := false }.runRegisterStream
  else match s.changedFilePath e.path with
    | (s, some path) => s.notice (!e.ownEvent) path
    | (s, none) => (s, [])

/-! ### The configuration monitor -/

/-- The path to load after a signal about `changed`; `none` if the signal is ignored. -/
def pathToLoad (changed : String) (s : ConfigurationMonitor) : Option String :=
  if (s.files s.userPath).isSome then
    if changed ≠ s.userPath ∧ changed = s.systemPath then none else some changed
  else if changed = s.userPath ∧ (s.files s.systemPath).isSome then some s.systemPath
  else some changed

section

variable [NlohmannJson]

/-- What the constructor of `core_configuration` finds in a file. -/
def documentOf (file : Option ConfigurationFile) : Option Json := do
  let file ← file
  if file.validOwner then NlohmannJson.parse file.body else none

variable [NaturalSort]

/-- A new configuration is taken, and observers are told. -/
def take (c : CoreConfiguration) (s : ConfigurationMonitor) :
    ConfigurationMonitor × List ConfigurationMonitorJob :=
  ({ s with coreConfiguration := some c }, [coreConfigurationUpdated c])

/-- What becomes of a configuration that has been loaded. -/
def consider (c : CoreConfiguration) (s : ConfigurationMonitor) :
    ConfigurationMonitor × List ConfigurationMonitorJob :=
  match s.coreConfiguration with
  | none => s.take c
  | some old =>
    if c.loaded then
      match old.toJson, c.toJson with
      | some oldJson, some json => if oldJson == json then (s, []) else s.take c
      -- `to_json` throws, and nothing catches the exception.
      | _, _ => ({ s with crashed := true }, [])
    else (s, [])

/-- A configuration is loaded. -/
def loadDocument (document : Option Json) (s : ConfigurationMonitor) :
    ConfigurationMonitor × List ConfigurationMonitorJob :=
  { s with documents := s.documents ++ [document] }.consider
    (CoreConfiguration.load s.errorHandling document)

/-- The slot of `file_changed`. -/
def runFileChanged (changed : String) (s : ConfigurationMonitor) :
    ConfigurationMonitor × List ConfigurationMonitorJob :=
  match s.pathToLoad changed with
  | none => (s, [])
  | some path => s.loadDocument (documentOf (s.files path))

/-- Run a function of the queue. -/
def exec (_ : Unit) (job : ConfigurationMonitorJob) (s : ConfigurationMonitor) :
    ConfigurationMonitor × List ConfigurationMonitorJob :=
  match job with
  | registerStream => s.runRegisterStream
  | streamCallback events => sequence handleEvent events s
  | fileChanged path => s.runFileChanged path
  | coreConfigurationUpdated c => ({ s with updates := s.updates ++ [c] }, [])

/-! ### Runs -/

/-- What may happen. -/
inductive Input
  | change (path : String) (file : Option ConfigurationFile)
  | events (events : List FsEvent)
  | asyncStart
  | runJob

/-- A file changes.  macOS owes an event for it once the stream is there. -/
def change (path : String) (file : Option ConfigurationFile) (s : ConfigurationMonitor) :
    ConfigurationMonitor :=
  { s with
    files := Function.update s.files path file
    unnoticed := if s.stream then insert path s.unnoticed else s.unnoticed }

/-- The changes that macOS owes an event for after these. -/
def afterEvents (events : List FsEvent) (s : ConfigurationMonitor) : ConfigurationMonitor :=
  { s with
    unnoticed := s.unnoticed.filter fun path => ∀ e ∈ events, e.path ≠ path }

/-- One step. -/
def step (w : Worker ConfigurationMonitor ConfigurationMonitorJob) :
    Input → Worker ConfigurationMonitor ConfigurationMonitorJob
  | .change path file => w.modify (change path file)
  | .events events =>
    if w.state.stream then (w.modify (afterEvents events)).enqueue [streamCallback events] else w
  | .asyncStart => w.enqueue [registerStream]
  | .runJob => if w.state.crashed then w else w.runJob exec ()

omit [NlohmannJson] [NaturalSort] in
/-- A monitor for these two paths. -/
def initial (userPath systemPath : String) (errorHandling : ErrorHandling)
    (files : String → Option ConfigurationFile) :
    Worker ConfigurationMonitor ConfigurationMonitorJob :=
  ⟨{ userPath, systemPath, errorHandling, files }, []⟩

/-- A run of a monitor for these two paths. -/
def run (userPath systemPath : String) (errorHandling : ErrorHandling)
    (files : String → Option ConfigurationFile) (is : List Input) :
    Worker ConfigurationMonitor ConfigurationMonitorJob :=
  Machine.run step (initial userPath systemPath errorHandling files) is

end

/-! ### What watching the files leaves alone -/

/-- What the file monitor does not touch. -/
structure Watched (s s' : ConfigurationMonitor) : Prop where
  userPath : s'.userPath = s.userPath
  systemPath : s'.systemPath = s.systemPath
  errorHandling : s'.errorHandling = s.errorHandling
  files : s'.files = s.files
  documents : s'.documents = s.documents
  coreConfiguration : s'.coreConfiguration = s.coreConfiguration
  updates : s'.updates = s.updates
  crashed : s'.crashed = s.crashed

theorem Watched.refl (s : ConfigurationMonitor) : Watched s s :=
  ⟨rfl, rfl, rfl, rfl, rfl, rfl, rfl, rfl⟩

theorem Watched.trans {s s' s'' : ConfigurationMonitor} (h : Watched s s') (h' : Watched s' s'') :
    Watched s s'' where
  userPath := h'.userPath.trans h.userPath
  systemPath := h'.systemPath.trans h.systemPath
  errorHandling := h'.errorHandling.trans h.errorHandling
  files := h'.files.trans h.files
  documents := h'.documents.trans h.documents
  coreConfiguration := h'.coreConfiguration.trans h.coreConfiguration
  updates := h'.updates.trans h.updates
  crashed := h'.crashed.trans h.crashed

/-- The files that are watched are the two that have been announced. -/
theorem Watched.targets {s s' : ConfigurationMonitor} (h : Watched s s') :
    s'.targets = s.targets := by
  rw [ConfigurationMonitor.targets, h.userPath, h.systemPath, ConfigurationMonitor.targets]

/-- Functions that are done one after another. -/
theorem watched_sequence {α : Type}
    {f : α → ConfigurationMonitor → ConfigurationMonitor × List ConfigurationMonitorJob}
    (h : ∀ x s, Watched s (f x s).1) (xs : List α) (s : ConfigurationMonitor) :
    Watched s (sequence f xs s).1 := by
  induction xs generalizing s with
  | nil => exact .refl s
  | cons x xs ih => exact (h x s).trans (ih (f x s).1)

/-- **What reading a file again does**: nothing if its body is the same, or it is read and a change
is signalled. -/
theorem notice_cases (signal : Bool) (path : String) (s : ConfigurationMonitor) :
    (s.fileBodies path).map (·.map ConfigurationFile.body) =
        some ((s.files path).map ConfigurationFile.body) ∧
      s.notice signal path = (s, []) ∨
    (s.fileBodies path).map (·.map ConfigurationFile.body) ≠
        some ((s.files path).map ConfigurationFile.body) ∧
      s.notice signal path =
        ({ s with fileBodies := Function.update s.fileBodies path (some (s.files path)) },
          if signal then [fileChanged path] else []) := by
  unfold notice updateFileBodies
  by_cases hbody : (s.fileBodies path).map (·.map ConfigurationFile.body) =
      some ((s.files path).map ConfigurationFile.body)
  · rw [if_pos hbody]
    exact .inl ⟨hbody, rfl⟩
  · rw [if_neg hbody]
    exact .inr ⟨hbody, by cases signal <;> rfl⟩

/-- Noticing a file changes what is known of it, and nothing of what is watched. -/
theorem watched_notice (signal : Bool) (path : String) (s : ConfigurationMonitor) :
    Watched s (s.notice signal path).1 := by
  rcases notice_cases signal path s with ⟨-, h⟩ | ⟨-, h⟩ <;> rw [h]
  · exact .refl s
  · exact ⟨rfl, rfl, rfl, rfl, rfl, rfl, rfl, rfl⟩

theorem watched_runRegisterStream (s : ConfigurationMonitor) :
    Watched s s.runRegisterStream.1 := by
  unfold runRegisterStream
  split_ifs
  · exact .refl s
  · have hsequence := watched_sequence (watched_notice true) s.targets s
    exact hsequence.trans ⟨rfl, rfl, rfl, rfl, rfl, rfl, rfl, rfl⟩

/-- **What an event does**: the stream is registered anew, the event is ignored, or a file is read
again. -/
theorem handleEvent_cases (e : FsEvent) (s : ConfigurationMonitor) :
    e.rootChanged = true ∧ handleEvent e s = { s with stream := false }.runRegisterStream ∨
    e.rootChanged = false ∧ (s.files e.path = none → e.path ∉ s.streamFilePaths) ∧
      ((s.files e.path).isSome → e.path ∉ s.targets) ∧ handleEvent e s = (s, []) ∨
    ∃ streamFilePaths, e.rootChanged = false ∧
      (e.path ∈ s.targets ∨ e.path ∈ s.streamFilePaths) ∧
      (∀ path ∈ streamFilePaths, path ∈ s.targets ∨ path ∈ s.streamFilePaths) ∧
      handleEvent e s = { s with streamFilePaths }.notice (!e.ownEvent) e.path := by
  unfold handleEvent
  cases hroot : e.rootChanged with
  | true => exact .inl ⟨rfl, rfl⟩
  | false =>
      right
      rw [if_neg Bool.false_ne_true]
      unfold changedFilePath
      split_ifs with hfile htarget hseen
      · refine .inr ⟨insert e.path s.streamFilePaths, rfl, .inl htarget, fun path hpath => ?_, rfl⟩
        rcases Finset.mem_insert.mp hpath with rfl | hpath
        · exact .inl htarget
        · exact .inr hpath
      · exact .inl ⟨rfl, fun hnone => absurd hnone (Option.isSome_iff_ne_none.mp hfile),
          fun _ => htarget, rfl⟩
      · exact .inr ⟨s.streamFilePaths.erase e.path, rfl, .inr hseen,
          fun path hpath => .inr (Finset.mem_of_mem_erase hpath), rfl⟩
      · exact .inl ⟨rfl, fun _ => hseen, fun h => absurd h hfile, rfl⟩

/-- An event of the file system is looked at by its path. -/
theorem watched_handleEvent (e : FsEvent) (s : ConfigurationMonitor) :
    Watched s (handleEvent e s).1 := by
  have hstream : Watched s { s with stream := false } := ⟨rfl, rfl, rfl, rfl, rfl, rfl, rfl, rfl⟩
  rcases handleEvent_cases e s with ⟨-, h⟩ | ⟨-, -, -, h⟩ | ⟨streamFilePaths, -, -, -, h⟩ <;> rw [h]
  · exact hstream.trans (watched_runRegisterStream _)
  · exact .refl s
  · have hseen : Watched s { s with streamFilePaths } := ⟨rfl, rfl, rfl, rfl, rfl, rfl, rfl, rfl⟩
    exact hseen.trans (watched_notice _ _ _)

/-! ### What is read -/

/-- What the file monitor has read of this file is what is there. -/
def IsRead (s : ConfigurationMonitor) (path : String) : Prop :=
  s.fileBodies path = some (s.files path)

instance (s : ConfigurationMonitor) (path : String) : Decidable (s.IsRead path) :=
  inferInstanceAs (Decidable (s.fileBodies path = some (s.files path)))

/-- The file has got another owner only together with another body. -/
def KeepsOwner (s : ConfigurationMonitor) (path : String) : Prop :=
  ∀ old new, s.fileBodies path = some (some old) → s.files path = some new →
    old.body = new.body → old = new

section

variable {s : ConfigurationMonitor} {path : String}

/-- What has been read stays read. -/
theorem IsRead.notice (h : s.IsRead path) (signal : Bool) (other : String) :
    (s.notice signal other).1.IsRead path := by
  rcases notice_cases signal other s with ⟨-, heq⟩ | ⟨-, heq⟩ <;> rw [heq]
  · exact h
  · show Function.update s.fileBodies other (some (s.files other)) path = some (s.files path)
    by_cases hpath : path = other
    · rw [hpath, Function.update_self]
    · rw [Function.update_of_ne hpath]
      exact h

/-- An owner that is right stays right when another file is looked at. -/
theorem KeepsOwner.notice (h : s.KeepsOwner path) (signal : Bool) (other : String) :
    (s.notice signal other).1.KeepsOwner path := by
  rcases notice_cases signal other s with ⟨-, heq⟩ | ⟨-, heq⟩ <;> rw [heq]
  · exact h
  · intro old new hold hnew hbody
    change Function.update s.fileBodies other (some (s.files other)) path = _ at hold
    by_cases hpath : path = other
    · rw [hpath, Function.update_self, ← hpath] at hold
      exact Option.some.inj ((Option.some.inj hold).symm.trans hnew)
    · rw [Function.update_of_ne hpath] at hold
      exact h old new hold hnew hbody

/-- A file that is read again is read, whether its body has changed or not. -/
theorem KeepsOwner.isRead_notice (h : s.KeepsOwner path) (signal : Bool) :
    (s.notice signal path).1.IsRead path := by
  rcases notice_cases signal path s with ⟨hbody, heq⟩ | ⟨-, heq⟩ <;> rw [heq]
  · obtain ⟨file, hfile, hbody⟩ := Option.map_eq_some_iff.mp hbody
    unfold IsRead
    rw [hfile]
    cases file with
    | none =>
        rw [Option.map_none, eq_comm, Option.map_eq_none_iff] at hbody
        rw [hbody]
    | some old =>
        obtain ⟨new, hnew, hbody⟩ := Option.map_eq_some_iff.mp hbody.symm
        rw [hnew, h old new hfile hnew hbody.symm]
  · exact Function.update_self ..

/-- A file that has been read stays read while functions are done one after another. -/
theorem IsRead.sequence {α : Type}
    {f : α → ConfigurationMonitor → ConfigurationMonitor × List ConfigurationMonitorJob}
    (hf : ∀ x s, IsRead s path → (f x s).1.IsRead path) (xs : List α) (h : s.IsRead path) :
    (ConfigurationMonitor.sequence f xs s).1.IsRead path := by
  induction xs generalizing s with
  | nil => exact h
  | cons x xs ih => exact ih (hf x s h)

theorem IsRead.runRegisterStream (h : s.IsRead path) : s.runRegisterStream.1.IsRead path := by
  unfold ConfigurationMonitor.runRegisterStream
  split_ifs
  · exact h
  · exact IsRead.sequence (fun other _ h => h.notice true other) s.targets h

theorem IsRead.handleEvent (h : s.IsRead path) (e : FsEvent) :
    (handleEvent e s).1.IsRead path := by
  have hstream : IsRead { s with stream := false } path := h
  rcases handleEvent_cases e s with ⟨-, heq⟩ | ⟨-, -, -, heq⟩ | ⟨streamFilePaths, -, -, -, heq⟩ <;>
    rw [heq]
  · exact hstream.runRegisterStream
  · exact h
  · exact IsRead.notice (s := { s with streamFilePaths }) h _ _

/-- A stream that is registered has read all files. -/
theorem isRead_runRegisterStream (hstream : s.stream = false)
    (howner : ∀ path ∈ s.targets, s.KeepsOwner path) (hpath : path ∈ s.targets) :
    s.runRegisterStream.1.IsRead path := by
  unfold ConfigurationMonitor.runRegisterStream
  rw [if_neg (by rw [hstream]; exact Bool.false_ne_true)]
  have hsecond := (howner s.systemPath (by simp [targets])).notice true s.userPath
  show (sequence (ConfigurationMonitor.notice true) [s.userPath, s.systemPath] s).1.IsRead path
  rcases List.mem_pair.mp hpath with rfl | rfl
  · exact ((howner s.userPath hpath).isRead_notice true).notice true s.systemPath
  · exact hsecond.isRead_notice true

/-! ### Which events are noticed -/

/-- **An event is noticed**: the owner has not changed alone, a file that is gone has been seen
since the stream was registered, and the change was not made by this process. -/
def Noticed (e : FsEvent) (s : ConfigurationMonitor) : Prop :=
  if e.rootChanged then ∀ path ∈ s.targets, s.KeepsOwner path
  else e.path ∈ s.targets → s.KeepsOwner e.path ∧
    (s.files e.path = none → e.path ∈ s.streamFilePaths ∨ s.IsRead e.path) ∧
    (e.ownEvent = true → s.IsRead e.path)

/-- These events are noticed, one after another. -/
def NoticedAll : List FsEvent → ConfigurationMonitor → Prop
  | [], _ => True
  | e :: events, s => Noticed e s ∧ NoticedAll events (handleEvent e s).1

/-- All files are read. -/
def UpToDate (s : ConfigurationMonitor) : Prop := ∀ path ∈ s.targets, s.IsRead path

instance (s : ConfigurationMonitor) : Decidable s.UpToDate :=
  inferInstanceAs (Decidable (∀ path ∈ s.targets, s.IsRead path))

/-- A file that an event is about has been read afterwards. -/
theorem Noticed.isRead_handleEvent {e : FsEvent} (h : Noticed e s) (hpath : path ∈ s.targets)
    (he : e.rootChanged = true ∨ e.path = path) : (handleEvent e s).1.IsRead path := by
  unfold Noticed at h
  rcases handleEvent_cases e s with ⟨hroot, heq⟩ | ⟨hroot, hgone, hthere, heq⟩ |
    ⟨streamFilePaths, hroot, -, -, heq⟩ <;> rw [heq]
  · rw [if_pos hroot] at h
    exact isRead_runRegisterStream (s := { s with stream := false }) rfl h hpath
  · obtain rfl := he.resolve_left (by rw [hroot]; exact Bool.false_ne_true)
    rw [if_neg (by rw [hroot]; exact Bool.false_ne_true)] at h
    cases hfile : s.files e.path with
    | some file => exact absurd hpath (hthere (by rw [hfile]; rfl))
    | none => exact ((h hpath).2.1 hfile).resolve_left (hgone hfile)
  · obtain rfl := he.resolve_left (by rw [hroot]; exact Bool.false_ne_true)
    rw [if_neg (by rw [hroot]; exact Bool.false_ne_true)] at h
    exact KeepsOwner.isRead_notice (s := { s with streamFilePaths }) (h hpath).1 _

/-- **A file that an event is about is read** once all events of the callback have been handled. -/
theorem NoticedAll.isRead_sequence {events : List FsEvent} (h : NoticedAll events s)
    (hpath : path ∈ s.targets) {e : FsEvent} (he : e ∈ events)
    (habout : e.rootChanged = true ∨ e.path = path) :
    (sequence handleEvent events s).1.IsRead path := by
  induction events generalizing s with
  | nil => exact absurd he List.not_mem_nil
  | cons e' events ih =>
      rcases List.mem_cons.mp he with rfl | he
      · exact IsRead.sequence (fun e _ h => h.handleEvent e) events
          (h.1.isRead_handleEvent hpath habout)
      · have htargets := (watched_handleEvent e' s).targets
        exact ih h.2 (by rw [htargets]; exact hpath) he

end

/-! ### What has been loaded -/

section

variable [NlohmannJson]

/-- What is to be loaded, if this is the user's file: the system's file stands in for one that does
not exist. -/
def wanted (file : Option ConfigurationFile) (s : ConfigurationMonitor) : Option Json :=
  documentOf (file.or (s.fileBodies s.systemPath).join)

variable [NaturalSort]

/-- Whether the configuration is the one that is made of this document. -/
def Shows (s : ConfigurationMonitor) (document : Option Json) : Prop :=
  ∃ c, s.coreConfiguration = some c ∧
    (c.toJson == (CoreConfiguration.load s.errorHandling document).toJson) = true

/-- **What is in the queue and what has been loaded**: if no signal about the user's file is on its
way, and none about the system's while that counts, then what is wanted has been loaded last. -/
structure Follows (s : ConfigurationMonitor) (jobs : List ConfigurationMonitorJob) : Prop where
  known : ∀ path, fileChanged path ∈ jobs → path ∈ s.targets
  seen : ∀ path ∈ s.streamFilePaths, path ∈ s.targets
  settled : ∀ file, s.fileBodies s.userPath = some file → fileChanged s.userPath ∉ jobs →
    (file = none → fileChanged s.systemPath ∉ jobs) →
    s.documents.getLast? = some (s.wanted file)
  shows : ∀ document, s.documents.getLast? = some document →
    (CoreConfiguration.load s.errorHandling document).loaded = true → s.crashed = false →
    s.Shows document

variable {s : ConfigurationMonitor} {jobs : List ConfigurationMonitorJob}

/-- What does not concern the files and the configuration. -/
theorem Follows.congr (h : s.Follows jobs) {s' : ConfigurationMonitor} (hw : Watched s s')
    (hbodies : s'.fileBodies = s.fileBodies)
    (hseen : ∀ path ∈ s'.streamFilePaths, path ∈ s.targets) : s'.Follows jobs := by
  constructor
  · rw [hw.targets]
    exact h.known
  · rw [hw.targets]
    exact hseen
  · unfold wanted
    rw [hbodies, hw.userPath, hw.systemPath, hw.documents]
    exact h.settled
  · unfold Shows
    rw [hw.documents, hw.errorHandling, hw.crashed, hw.coreConfiguration]
    exact h.shows

/-- Other functions in the queue. -/
theorem Follows.append (h : s.Follows jobs) {new : List ConfigurationMonitorJob}
    (hnew : ∀ path, fileChanged path ∉ new) : s.Follows (jobs ++ new) := by
  have hmem (path : String) : fileChanged path ∈ jobs ++ new ↔ fileChanged path ∈ jobs := by
    rw [List.mem_append]
    exact or_iff_left (hnew path)
  constructor
  · intro path hpath
    exact h.known path ((hmem path).mp hpath)
  · exact h.seen
  · intro file hfile huser hsystem
    rw [hmem] at huser hsystem
    exact h.settled file hfile huser hsystem
  · exact h.shows

/-- Another function has run. -/
theorem Follows.tail {job : ConfigurationMonitorJob} (h : s.Follows (job :: jobs))
    (hjob : ∀ path, job ≠ fileChanged path) : s.Follows jobs := by
  have hmem (path : String) : fileChanged path ∈ job :: jobs ↔ fileChanged path ∈ jobs := by
    rw [List.mem_cons]
    exact or_iff_right (hjob path).symm
  constructor
  · intro path hpath
    exact h.known path (List.mem_cons_of_mem _ hpath)
  · exact h.seen
  · intro file hfile huser hsystem
    rw [← hmem] at huser hsystem
    exact h.settled file hfile huser hsystem
  · exact h.shows

/-- **A file that is read again**: its change is signalled, or there is none. -/
theorem Follows.notice (h : s.Follows jobs) {signal : Bool} {path : String}
    (hpath : path ∈ s.targets) (hsignal : signal = true ∨ s.IsRead path) :
    (s.notice signal path).1.Follows (jobs ++ (s.notice signal path).2) := by
  rcases notice_cases signal path s with ⟨-, heq⟩ | ⟨hbody, heq⟩
  · rw [heq, List.append_nil]
    exact h
  · have hsignal : signal = true := by
      refine hsignal.resolve_right fun hread => hbody ?_
      rw [hread]
      rfl
    have hw := watched_notice signal path s
    rw [heq] at hw ⊢
    rw [if_pos hsignal]
    constructor
    · intro other hother
      rw [hw.targets]
      rcases List.mem_append.mp hother with hother | hother
      · exact h.known other hother
      · obtain rfl : other = path := by simpa using hother
        exact hpath
    · rw [hw.targets]
      exact h.seen
    · intro file hfile huser hsystem
      change Function.update s.fileBodies path (some (s.files path)) s.userPath = some file at hfile
      change fileChanged s.userPath ∉ jobs ++ [fileChanged path] at huser
      change file = none → fileChanged s.systemPath ∉ jobs ++ [fileChanged path] at hsystem
      rw [List.mem_append, not_or, List.mem_singleton] at huser
      have hne : s.userPath ≠ path := fun heq => huser.2 (by rw [heq])
      rw [Function.update_of_ne hne] at hfile
      -- It is the system's file, and no signal about it may be on its way if it counts.
      obtain rfl : path = s.systemPath := by
        rcases List.mem_pair.mp hpath with rfl | rfl
        · exact absurd rfl hne
        · rfl
      cases file with
      | none => exact absurd (List.mem_append_right _ List.mem_cons_self) (hsystem rfl)
      | some file => exact h.settled (some file) hfile huser.1 nofun
    · exact h.shows

omit [NlohmannJson] [NaturalSort] in
/-- A rule for functions that are done one after another. -/
theorem sequence_invariant {α : Type}
    {f : α → ConfigurationMonitor → ConfigurationMonitor × List ConfigurationMonitorJob}
    {Inv : ConfigurationMonitor → List ConfigurationMonitorJob → Prop} {xs : List α}
    (keep : ∀ x ∈ xs, ∀ s jobs, Inv s jobs → Inv (f x s).1 (jobs ++ (f x s).2))
    {s : ConfigurationMonitor} {jobs : List ConfigurationMonitorJob} (init : Inv s jobs) :
    Inv (sequence f xs s).1 (jobs ++ (sequence f xs s).2) := by
  induction xs generalizing s jobs with
  | nil =>
      rw [sequence, List.append_nil]
      exact init
  | cons x xs ih =>
      rw [sequence, ← List.append_assoc]
      exact ih (fun y hy => keep y (List.mem_cons_of_mem _ hy))
        (keep x List.mem_cons_self s jobs init)

/-- Registering the stream reads the files and enqueues a signal for each. -/
theorem Follows.runRegisterStream (h : s.Follows jobs) :
    s.runRegisterStream.1.Follows (jobs ++ s.runRegisterStream.2) := by
  unfold ConfigurationMonitor.runRegisterStream
  split_ifs
  · rw [List.append_nil]
    exact h
  · have hsequence := @sequence_invariant _ (ConfigurationMonitor.notice true)
      (fun s' jobs => s'.Follows jobs ∧ s'.targets = s.targets) s.targets
      (fun path hpath s' jobs h => ⟨h.1.notice (by rw [h.2]; exact hpath) (.inl rfl),
        (watched_notice true path s').targets.trans h.2⟩) s jobs ⟨h, rfl⟩
    exact hsequence.1.congr ⟨rfl, rfl, rfl, rfl, rfl, rfl, rfl, rfl⟩ rfl hsequence.1.seen

/-- An event that is noticed reads its file and enqueues a signal if there is something to load. -/
theorem Follows.handleEvent (h : s.Follows jobs) {e : FsEvent} (he : Noticed e s) :
    (handleEvent e s).1.Follows (jobs ++ (handleEvent e s).2) := by
  rcases handleEvent_cases e s with ⟨-, heq⟩ | ⟨-, -, -, heq⟩ |
    ⟨streamFilePaths, hroot, hpath, hseen, heq⟩ <;> rw [heq]
  · have hstream : Follows { s with stream := false } jobs :=
      h.congr ⟨rfl, rfl, rfl, rfl, rfl, rfl, rfl, rfl⟩ rfl h.seen
    exact hstream.runRegisterStream
  · rw [List.append_nil]
    exact h
  · have hpath : e.path ∈ s.targets := hpath.elim id (h.seen _)
    have hfollows : Follows { s with streamFilePaths } jobs :=
      h.congr ⟨rfl, rfl, rfl, rfl, rfl, rfl, rfl, rfl⟩ rfl
        fun path hmem => (hseen path hmem).elim id (h.seen path)
    refine hfollows.notice hpath ?_
    unfold Noticed at he
    rw [if_neg (by rw [hroot]; exact Bool.false_ne_true)] at he
    cases hown : e.ownEvent with
    | false => exact .inl rfl
    | true => exact .inr ((he hpath).2.2 hown)

/-- The events of one callback, one after another. -/
theorem Follows.streamCallback (h : s.Follows jobs) {events : List FsEvent}
    (hevents : NoticedAll events s) :
    (sequence ConfigurationMonitor.handleEvent events s).1.Follows
      (jobs ++ (sequence ConfigurationMonitor.handleEvent events s).2) := by
  induction events generalizing s jobs with
  | nil =>
      rw [sequence, List.append_nil]
      exact h
  | cons e events ih =>
      rw [sequence, ← List.append_assoc]
      exact ih (h.handleEvent hevents.1) hevents.2

/-! ### Loading the file -/

omit [NaturalSort] in
/-- What `to_json` cannot write: the file was JSON, but no object. -/
def IsNoObject (document : Option Json) : Prop :=
  ∃ json, document = some json ∧ ∀ members, json ≠ .object members

/-- A configuration that cannot be written is one that was made of JSON other than an object. -/
theorem toJson_load_eq_none_iff (errorHandling : ErrorHandling) (document : Option Json) :
    (CoreConfiguration.load errorHandling document).toJson = none ↔ IsNoObject document := by
  have hjson : (CoreConfiguration.load errorHandling document).json =
      document.getD (.object []) := rfl
  unfold CoreConfiguration.toJson IsNoObject
  rw [hjson]
  cases document with
  | none => simp
  | some json => cases json <;> simp

/-- Only an object is loaded without an error. -/
theorem toJson_ne_none_of_loaded {errorHandling : ErrorHandling} {document : Option Json}
    (h : (CoreConfiguration.load errorHandling document).loaded = true) :
    (CoreConfiguration.load errorHandling document).toJson ≠ none := by
  rw [Ne, toJson_load_eq_none_iff]
  rintro ⟨json, rfl, hno⟩
  cases json with
  | object members => exact hno members rfl
  | _ => exact absurd h nofun

/-- **What becomes of a configuration that is loaded**: it is taken, it is dropped, or it raises an
exception. -/
theorem loadDocument_cases (document : Option Json) (s : ConfigurationMonitor)
    {c : CoreConfiguration} (hc : CoreConfiguration.load s.errorHandling document = c) :
    (∀ old, s.coreConfiguration = some old →
        c.loaded = true ∧ old.toJson ≠ none ∧ (old.toJson == c.toJson) = false) ∧
      s.loadDocument document =
        ({ s with documents := s.documents ++ [document], coreConfiguration := some c },
          [coreConfigurationUpdated c]) ∨
    (∃ old, s.coreConfiguration = some old ∧
        (c.loaded = false ∨ old.toJson ≠ none ∧ (old.toJson == c.toJson) = true)) ∧
      s.loadDocument document = ({ s with documents := s.documents ++ [document] }, []) ∨
    (∃ old, s.coreConfiguration = some old ∧ c.loaded = true ∧ old.toJson = none) ∧
      s.loadDocument document =
        ({ s with documents := s.documents ++ [document], crashed := true }, []) := by
  have hjson (hloaded : c.loaded = true) : ∃ json, c.toJson = some json := by
    rw [← hc] at hloaded ⊢
    exact Option.ne_none_iff_exists'.mp (toJson_ne_none_of_loaded hloaded)
  unfold loadDocument consider
  rw [hc]
  cases hold : s.coreConfiguration with
  | none => exact .inl ⟨nofun, rfl⟩
  | some old =>
      cases hloaded : c.loaded with
      | false => exact .inr (.inl ⟨⟨old, rfl, .inl rfl⟩, rfl⟩)
      | true =>
          obtain ⟨json, hjson⟩ := hjson hloaded
          dsimp only
          rw [if_pos rfl, hjson]
          cases holdJson : old.toJson with
          | none => exact .inr (.inr ⟨⟨old, rfl, rfl, holdJson⟩, rfl⟩)
          | some oldJson =>
              have hbeq : (old.toJson == some json) = (oldJson == json) := by
                rw [holdJson]
                rfl
              have hne : old.toJson ≠ none := by
                rw [holdJson]
                exact Option.some_ne_none _
              dsimp only
              cases hsame : oldJson == json with
              | true => exact .inr (.inl ⟨⟨old, rfl, .inr ⟨hne, hbeq.trans hsame⟩⟩, rfl⟩)
              | false =>
                  refine .inl ⟨fun old' hold' => ?_, rfl⟩
                  obtain rfl := Option.some.inj hold'
                  exact ⟨rfl, hne, hbeq.trans hsame⟩

/-- **What the slot does**: it ignores the signal, or loads a file. -/
theorem runFileChanged_cases (changed : String) (s : ConfigurationMonitor) :
    s.pathToLoad changed = none ∧ s.runFileChanged changed = (s, []) ∨
    ∃ path, s.pathToLoad changed = some path ∧
      s.runFileChanged changed = s.loadDocument (documentOf (s.files path)) := by
  unfold runFileChanged
  cases hpath : s.pathToLoad changed with
  | none => exact .inl ⟨rfl, rfl⟩
  | some path => exact .inr ⟨path, rfl, rfl⟩

omit [NaturalSort] in
/-- What is in the file that counts: the user's, or the system's if that does not exist. -/
def currentDocument (s : ConfigurationMonitor) : Option Json :=
  documentOf ((s.files s.userPath).or (s.files s.systemPath))

omit [NaturalSort] in
/-- **The file that is loaded is the one that counts.** -/
theorem documentOf_pathToLoad {changed path : String} (hchanged : changed ∈ s.targets)
    (hpath : s.pathToLoad changed = some path) :
    documentOf (s.files path) = s.currentDocument := by
  unfold pathToLoad at hpath
  unfold currentDocument
  split_ifs at hpath with huser hignored hsystem
  · obtain rfl := Option.some.inj hpath
    obtain rfl : changed = s.userPath := by
      by_contra hne
      exact hignored ⟨hne, (List.mem_pair.mp hchanged).resolve_left hne⟩
    obtain ⟨file, hfile⟩ := Option.isSome_iff_exists.mp huser
    rw [hfile]
    rfl
  · obtain rfl := Option.some.inj hpath
    rw [Option.not_isSome_iff_eq_none.mp huser, Option.none_or]
  · obtain rfl := Option.some.inj hpath
    rw [Option.not_isSome_iff_eq_none.mp huser, Option.none_or]
    rcases List.mem_pair.mp hchanged with rfl | rfl
    · have hnone : s.files s.systemPath = none :=
        Option.not_isSome_iff_eq_none.mp fun h => hsystem ⟨rfl, h⟩
      rw [Option.not_isSome_iff_eq_none.mp huser, hnone]
    · rfl

omit [NaturalSort] in
/-- `to_json` gives the same as itself. -/
theorem toJson_beq_self (c : CoreConfiguration) : (c.toJson == c.toJson) = true := by
  cases c.toJson with
  | none => rfl
  | some json => exact Json.beq_self json

/-- **A signal that is handled while all files are read**: what counts has been loaded. -/
theorem Follows.runFileChanged {path : String} (h : s.Follows (fileChanged path :: jobs))
    (hread : s.UpToDate) :
    (s.runFileChanged path).1.Follows (jobs ++ (s.runFileChanged path).2) := by
  have hpath : path ∈ s.targets := h.known path List.mem_cons_self
  have huser : s.IsRead s.userPath := hread _ (by simp [targets])
  have hsystem : s.IsRead s.systemPath := hread _ (by simp [targets])
  have hknown (other : String) (hother : fileChanged other ∈ jobs) : other ∈ s.targets :=
    h.known other (List.mem_cons_of_mem _ hother)
  rcases s.runFileChanged_cases path with ⟨hload, heq⟩ | ⟨loaded, hload, heq⟩ <;> rw [heq]
  · -- The user's file exists, so it does not matter that the system's has changed.
    rw [List.append_nil]
    unfold pathToLoad at hload
    split_ifs at hload with hexists hignored
    refine ⟨hknown, h.seen, fun file hfile hmem _ => ?_, h.shows⟩
    obtain ⟨userFile, huserFile⟩ := Option.isSome_iff_exists.mp hexists
    obtain rfl : some userFile = file := by
      rw [← huserFile]
      exact Option.some.inj (huser.symm.trans hfile)
    refine h.settled _ hfile (fun hmem' => ?_) nofun
    rcases List.mem_cons.mp hmem' with hhead | htail
    · exact hignored.1 (fileChanged.inj hhead).symm
    · exact hmem htail
  · -- What is loaded is what is wanted.
    have hcurrent := documentOf_pathToLoad hpath hload
    rw [hcurrent]
    have hwanted (file : Option ConfigurationFile) (hfile : s.fileBodies s.userPath = some file) :
        s.currentDocument = s.wanted file := by
      have hsystem : s.fileBodies s.systemPath = some (s.files s.systemPath) := hsystem
      obtain rfl := Option.some.inj (hfile.symm.trans huser)
      rw [wanted, hsystem]
      rfl
    generalize hc : CoreConfiguration.load s.errorHandling s.currentDocument = c
    have hlast : (s.documents ++ [s.currentDocument]).getLast? = some s.currentDocument :=
      List.getLast?_concat
    have hshown {s' : ConfigurationMonitor} {old : CoreConfiguration}
        (herror : s'.errorHandling = s.errorHandling)
        (hdocuments : s'.documents = s.documents ++ [s.currentDocument])
        (hold : s'.coreConfiguration = some old)
        (hsame : c.loaded = true → (old.toJson == c.toJson) = true) (document : Option Json)
        (hdocument : s'.documents.getLast? = some document)
        (hloaded : (CoreConfiguration.load s'.errorHandling document).loaded = true) :
        s'.Shows document := by
      rw [hdocuments, hlast] at hdocument
      obtain rfl := Option.some.inj hdocument
      rw [herror, hc] at hloaded
      exact ⟨old, hold, by rw [herror, hc]; exact hsame hloaded⟩
    rcases loadDocument_cases s.currentDocument s hc with
      ⟨-, heq⟩ | ⟨⟨old, hold, hdropped⟩, heq⟩ | ⟨-, heq⟩ <;> rw [heq]
    · have htaken : Follows { s with
          documents := s.documents ++ [s.currentDocument], coreConfiguration := some c } jobs := by
        refine ⟨hknown, h.seen, fun file hfile _ _ => ?_, fun document hd hl _ => ?_⟩
        · exact hlast.trans (congrArg some (hwanted file hfile))
        · exact hshown (by rfl) (by rfl) (by rfl) (fun _ => toJson_beq_self c) document hd hl
      have hupdate (path : String) : fileChanged path ∉ [coreConfigurationUpdated c] :=
        fun hmem => absurd (List.mem_singleton.mp hmem) nofun
      exact htaken.append hupdate
    · rw [List.append_nil]
      refine ⟨hknown, h.seen, fun file hfile _ _ => ?_, fun document hd hl _ => ?_⟩
      · exact hlast.trans (congrArg some (hwanted file hfile))
      · refine hshown (by rfl) (by rfl) (by exact hold) (fun hloaded => ?_) document hd hl
        rcases hdropped with hfails | ⟨-, hsame⟩
        · exact absurd (hfails.symm.trans hloaded) Bool.false_ne_true
        · exact hsame
    · rw [List.append_nil]
      refine ⟨hknown, h.seen, fun file hfile _ _ => ?_, fun _ _ _ hcrashed => ?_⟩
      · exact hlast.trans (congrArg some (hwanted file hfile))
      · exact absurd hcrashed.symm Bool.false_ne_true

/-! ### Runs in which nothing races -/

/-- Some events about this file are on their way to the function that reads it. -/
def IsAnnounced (jobs : List ConfigurationMonitorJob) (path : String) : Prop :=
  ∃ events, streamCallback events ∈ jobs ∧ ∃ e ∈ events, e.rootChanged = true ∨ e.path = path

/-- Every file is read, or will be. -/
structure Sound (w : Worker ConfigurationMonitor ConfigurationMonitorJob) : Prop where
  follows : w.state.Follows w.jobs
  registered : ∀ events, streamCallback events ∈ w.jobs → w.state.stream = true
  unread : w.state.stream = false → ∀ path, w.state.fileBodies path = none
  tracked : w.state.stream = true → ∀ path ∈ w.state.targets,
    path ∈ w.state.unnoticed ∨ IsAnnounced w.jobs path ∨ w.state.IsRead path

/-- **Nothing races**: events are noticed, and a signal is handled while no file has changed since
it was read. -/
def Careful (w : Worker ConfigurationMonitor ConfigurationMonitorJob) : Input → Prop
  | .runJob =>
    match w.jobs with
    | streamCallback events :: _ => NoticedAll events w.state
    | fileChanged _ :: _ => w.state.UpToDate
    | _ => True
  | _ => True

omit [NlohmannJson] [NaturalSort] in
/-- A stream that is registered owes no event. -/
theorem stream_runRegisterStream (s : ConfigurationMonitor) :
    s.runRegisterStream.1.stream = true := by
  unfold runRegisterStream
  split_ifs with hstream
  · exact hstream
  · rfl

omit [NlohmannJson] [NaturalSort] in
/-- The stream of the file system stays registered while its events are handled. -/
theorem stream_handleEvent (hstream : s.stream = true) (e : FsEvent) :
    (ConfigurationMonitor.handleEvent e s).1.stream = true := by
  rcases handleEvent_cases e s with ⟨-, heq⟩ | ⟨-, -, -, heq⟩ | ⟨streamFilePaths, -, -, -, heq⟩ <;>
    rw [heq]
  · exact stream_runRegisterStream _
  · exact hstream
  · rcases notice_cases (!e.ownEvent) e.path { s with streamFilePaths } with
      ⟨-, hnotice⟩ | ⟨-, hnotice⟩ <;> rw [hnotice] <;> exact hstream

omit [NlohmannJson] [NaturalSort] in
/-- An event is owed as before, unless all files have been read. -/
theorem Noticed.unnoticed_or_isRead {e : FsEvent} (he : Noticed e s) {path : String}
    (hpath : path ∈ s.targets) (hunnoticed : path ∈ s.unnoticed) :
    path ∈ (ConfigurationMonitor.handleEvent e s).1.unnoticed ∨
      (ConfigurationMonitor.handleEvent e s).1.IsRead path := by
  rcases handleEvent_cases e s with ⟨hroot, -⟩ | ⟨-, -, -, heq⟩ | ⟨streamFilePaths, -, -, -, heq⟩
  · exact .inr (he.isRead_handleEvent hpath (.inl hroot))
  · rw [heq]
    exact .inl hunnoticed
  · rw [heq]
    rcases notice_cases (!e.ownEvent) e.path { s with streamFilePaths } with
      ⟨-, hnotice⟩ | ⟨-, hnotice⟩ <;> rw [hnotice] <;> exact .inl hunnoticed

omit [NlohmannJson] [NaturalSort] in
/-- **After the events of a job**: its files are read, and the others are owed or read as before. -/
theorem NoticedAll.after {events : List FsEvent} (h : NoticedAll events s) {path : String}
    (hpath : path ∈ s.targets) (hbefore : path ∈ s.unnoticed ∨
      (∃ e ∈ events, e.rootChanged = true ∨ e.path = path) ∨ s.IsRead path) :
    path ∈ (sequence ConfigurationMonitor.handleEvent events s).1.unnoticed ∨
      (sequence ConfigurationMonitor.handleEvent events s).1.IsRead path := by
  rcases hbefore with hunnoticed | ⟨e, he, habout⟩ | hread
  · induction events generalizing s with
    | nil => exact .inl hunnoticed
    | cons e events ih =>
        have htargets := (watched_handleEvent e s).targets
        rcases h.1.unnoticed_or_isRead hpath hunnoticed with hunnoticed | hread
        · exact ih h.2 (by rw [htargets]; exact hpath) hunnoticed
        · exact .inr (IsRead.sequence (fun e _ h => h.handleEvent e) events hread)
  · exact .inr (h.isRead_sequence hpath he habout)
  · exact .inr (IsRead.sequence (fun e _ h => h.handleEvent e) events hread)

omit [NlohmannJson] [NaturalSort] in
/-- All events of a callback. -/
theorem stream_sequence (hstream : s.stream = true) (events : List FsEvent) :
    (sequence ConfigurationMonitor.handleEvent events s).1.stream = true := by
  induction events generalizing s with
  | nil => exact hstream
  | cons e events ih => exact ih (stream_handleEvent hstream e)

/-- The slot leaves the file monitor alone. -/
theorem runFileChanged_frame {β : Type} {f : ConfigurationMonitor → β}
    (hf : ∀ s documents coreConfiguration crashed,
      f { s with documents, coreConfiguration, crashed } = f s)
    (changed : String) (s : ConfigurationMonitor) : f (s.runFileChanged changed).1 = f s := by
  rcases s.runFileChanged_cases changed with ⟨-, heq⟩ | ⟨path, -, heq⟩ <;> rw [heq]
  rcases loadDocument_cases (documentOf (s.files path)) s rfl with
    ⟨-, heq⟩ | ⟨-, heq⟩ | ⟨-, heq⟩ <;> rw [heq]
  · exact hf s _ _ s.crashed
  · exact hf s _ s.coreConfiguration s.crashed
  · exact hf s _ s.coreConfiguration true

/-- What is loaded is signalled to observers alone. -/
theorem streamCallback_notMem_runFileChanged (changed : String) (s : ConfigurationMonitor)
    (events : List FsEvent) : streamCallback events ∉ (s.runFileChanged changed).2 := by
  rcases s.runFileChanged_cases changed with ⟨-, heq⟩ | ⟨path, -, heq⟩ <;> rw [heq]
  · exact List.not_mem_nil
  rcases loadDocument_cases (documentOf (s.files path)) s rfl with
    ⟨-, heq⟩ | ⟨-, heq⟩ | ⟨-, heq⟩ <;> rw [heq]
  · exact fun hmem => absurd (List.mem_singleton.mp hmem) nofun
  · exact List.not_mem_nil
  · exact List.not_mem_nil

/-- **A function of the dispatcher** keeps what is known of the files, if the step is a careful one.
-/
theorem sound_runJob {job : ConfigurationMonitorJob} (h : Sound ⟨s, job :: jobs⟩)
    (hcareful : Careful ⟨s, job :: jobs⟩ .runJob) :
    Sound ⟨(exec () job s).1, jobs ++ (exec () job s).2⟩ := by
  have hannounced (path : String) (hjob : ∀ events, job ≠ streamCallback events)
      (hmem : IsAnnounced (job :: jobs) path) (new : List ConfigurationMonitorJob) :
      IsAnnounced (jobs ++ new) path := by
    obtain ⟨events, hevents, habout⟩ := hmem
    rcases List.mem_cons.mp hevents with hevents | hevents
    · exact absurd hevents.symm (hjob events)
    · exact ⟨events, List.mem_append_left _ hevents, habout⟩
  cases job with
  | registerStream =>
      have hfollows := h.follows.tail nofun
      refine ⟨hfollows.runRegisterStream, fun _ _ => stream_runRegisterStream s, fun hstream => ?_,
        fun _ path hpath => ?_⟩
      · exact absurd (hstream.symm.trans (stream_runRegisterStream s)) Bool.false_ne_true
      · change path ∈ s.runRegisterStream.1.targets at hpath
        rw [(watched_runRegisterStream s).targets] at hpath
        show path ∈ s.runRegisterStream.1.unnoticed ∨ _ ∨ s.runRegisterStream.1.IsRead path
        cases hstream : s.stream with
        | true =>
            have heq : s.runRegisterStream = (s, []) := if_pos hstream
            rw [heq]
            exact (h.tracked hstream path hpath).imp_right
              (.imp_left fun hmem => hannounced path nofun hmem _)
        | false =>
            refine .inr (.inr (isRead_runRegisterStream hstream (fun other _ => ?_) hpath))
            intro old new hold
            exact absurd ((h.unread hstream other).symm.trans hold) nofun
  | streamCallback events =>
      have hfollows : s.Follows jobs := h.follows.tail nofun
      have hstream : s.stream = true := h.registered events List.mem_cons_self
      refine ⟨hfollows.streamCallback hcareful, fun _ _ => stream_sequence hstream events,
        fun hfalse => ?_, fun _ path hpath => ?_⟩
      · exact absurd (hfalse.symm.trans (stream_sequence hstream events)) Bool.false_ne_true
      · change path ∈ (sequence ConfigurationMonitor.handleEvent events s).1.targets at hpath
        rw [(watched_sequence watched_handleEvent events s).targets] at hpath
        rcases h.tracked hstream path hpath with hunnoticed | ⟨others, hothers, habout⟩ | hread
        · exact (hcareful.after hpath (.inl hunnoticed)).imp_right .inr
        · rcases List.mem_cons.mp hothers with heq | hothers
          · obtain rfl := streamCallback.inj heq
            exact (hcareful.after hpath (.inr (.inl habout))).imp_right .inr
          · exact .inr (.inl ⟨others, List.mem_append_left _ hothers, habout⟩)
        · exact (hcareful.after hpath (.inr (.inr hread))).imp_right .inr
  | fileChanged changed =>
      refine ⟨h.follows.runFileChanged hcareful, fun events hevents => ?_, ?_, ?_⟩
      · show (s.runFileChanged changed).1.stream = true
        rw [runFileChanged_frame (f := stream) (fun _ _ _ _ => rfl)]
        rcases List.mem_append.mp hevents with hevents | hevents
        · exact h.registered events (List.mem_cons_of_mem _ hevents)
        · exact absurd hevents (streamCallback_notMem_runFileChanged changed s events)
      · show (s.runFileChanged changed).1.stream = false →
          ∀ path, (s.runFileChanged changed).1.fileBodies path = none
        rw [runFileChanged_frame (f := stream) (fun _ _ _ _ => rfl),
          runFileChanged_frame (f := fileBodies) (fun _ _ _ _ => rfl)]
        exact h.unread
      · show (s.runFileChanged changed).1.stream = true →
          ∀ path ∈ (s.runFileChanged changed).1.targets,
            path ∈ (s.runFileChanged changed).1.unnoticed ∨ _ ∨
              (s.runFileChanged changed).1.IsRead path
        unfold IsRead
        rw [runFileChanged_frame (f := stream) (fun _ _ _ _ => rfl),
          runFileChanged_frame (f := fileBodies) (fun _ _ _ _ => rfl),
          runFileChanged_frame (f := unnoticed) (fun _ _ _ _ => rfl),
          runFileChanged_frame (f := files) (fun _ _ _ _ => rfl),
          runFileChanged_frame (f := targets) (fun _ _ _ _ => rfl)]
        exact fun hstream path hpath => (h.tracked hstream path hpath).imp_right
          (.imp_left fun hmem => hannounced path nofun hmem _)
  | coreConfigurationUpdated c =>
      have hfollows : s.Follows jobs := h.follows.tail nofun
      have hnothing : (exec () (coreConfigurationUpdated c) s).2 = [] := rfl
      rw [hnothing, List.append_nil]
      refine ⟨⟨hfollows.known, hfollows.seen, hfollows.settled, hfollows.shows⟩,
        fun events hevents => h.registered events (List.mem_cons_of_mem _ hevents), h.unread,
        fun hstream path hpath => ?_⟩
      rcases h.tracked hstream path hpath with hunnoticed | ⟨events, hevents, habout⟩ | hread
      · exact .inl hunnoticed
      · rcases List.mem_cons.mp hevents with heq | hevents
        · exact absurd heq nofun
        · exact .inr (.inl ⟨events, hevents, habout⟩)
      · exact .inr (.inr hread)

/-- A file that changes is owed an event, if there is a stream. -/
theorem Sound.change {w : Worker ConfigurationMonitor ConfigurationMonitorJob} (h : Sound w)
    (path : String) (file : Option ConfigurationFile) :
    Sound (w.modify (ConfigurationMonitor.change path file)) := by
  refine ⟨⟨h.follows.known, h.follows.seen, h.follows.settled, h.follows.shows⟩, h.registered,
    h.unread, fun hstream other hother => ?_⟩
  show other ∈ (if w.state.stream then insert path w.state.unnoticed else w.state.unnoticed) ∨ _ ∨
    w.state.fileBodies other = some (Function.update w.state.files path file other)
  change w.state.stream = true at hstream
  rw [if_pos hstream, Finset.mem_insert]
  by_cases hpath : other = path
  · exact .inl (.inl hpath)
  · rw [Function.update_of_ne hpath]
    exact (h.tracked hstream other hother).imp_left .inr

/-- Events that macOS tells of are on their way. -/
theorem Sound.events {w : Worker ConfigurationMonitor ConfigurationMonitorJob} (h : Sound w)
    (hstream : w.state.stream = true) (events : List FsEvent) :
    Sound ((w.modify (afterEvents events)).enqueue [streamCallback events]) := by
  have hfollows : (afterEvents events w.state).Follows w.jobs :=
    ⟨h.follows.known, h.follows.seen, h.follows.settled, h.follows.shows⟩
  refine ⟨hfollows.append fun path hmem => absurd (List.mem_singleton.mp hmem) nofun,
    fun _ _ => hstream, h.unread, fun _ path hpath => ?_⟩
  show path ∈ w.state.unnoticed.filter _ ∨ IsAnnounced (w.jobs ++ [streamCallback events]) path ∨ _
  rw [Finset.mem_filter]
  rcases h.tracked hstream path hpath with hunnoticed | ⟨others, hothers, habout⟩ | hread
  · by_cases htold : ∀ e ∈ events, e.path ≠ path
    · exact .inl ⟨hunnoticed, htold⟩
    · push Not at htold
      obtain ⟨e, he, hpath⟩ := htold
      exact .inr (.inl ⟨events, List.mem_append_right _ List.mem_cons_self, e, he, .inr hpath⟩)
  · exact .inr (.inl ⟨others, List.mem_append_left _ hothers, habout⟩)
  · exact .inr (.inr hread)

/-- **One step** that races with nothing. -/
theorem Sound.step {w : Worker ConfigurationMonitor ConfigurationMonitorJob} (h : Sound w)
    {i : Input} (hcareful : Careful w i) : Sound (ConfigurationMonitor.step w i) := by
  cases i with
  | change path file => exact h.change path file
  | events events =>
      show Sound (if w.state.stream then (w.modify (afterEvents events)).enqueue
        [streamCallback events] else w)
      split_ifs with hstream
      · exact h.events hstream events
      · exact h
  | asyncStart =>
      refine ⟨h.follows.append fun path hmem => absurd (List.mem_singleton.mp hmem) nofun,
        fun events hevents => ?_, h.unread, fun hstream path hpath => ?_⟩
      · rcases List.mem_append.mp hevents with hevents | hevents
        · exact h.registered events hevents
        · exact absurd (List.mem_singleton.mp hevents) nofun
      · exact (h.tracked hstream path hpath).imp_right (.imp_left fun ⟨events, hevents, habout⟩ =>
          ⟨events, List.mem_append_left _ hevents, habout⟩)
  | runJob =>
      show Sound (if w.state.crashed then w else w.runJob exec ())
      split_ifs
      · exact h
      · obtain ⟨s, jobs⟩ := w
        cases jobs with
        | nil => exact h
        | cons job jobs => exact sound_runJob h hcareful

variable {userPath systemPath : String} {errorHandling : ErrorHandling}
  {files : String → Option ConfigurationFile}

/-- A run of careful steps. -/
theorem sound_run {is : List Input}
    (hcareful : Machine.Steps step Careful (initial userPath systemPath errorHandling files) is) :
    Sound (run userPath systemPath errorHandling files is) := by
  have hinitial : Sound (initial userPath systemPath errorHandling files) :=
    ⟨⟨nofun, nofun, nofun, nofun⟩, nofun, fun _ _ => rfl, nofun⟩
  have hkeep (w : Worker ConfigurationMonitor ConfigurationMonitorJob) (i : Input)
      (hi : Careful w i) (h : Sound w) : Sound (step w i) := h.step hi
  exact Machine.steps_invariant hkeep hinitial hcareful

/-- **At rest, the configuration is that of the file** that counts, if that can be loaded. -/
theorem configuration_of_run {is : List Input}
    (hcareful : Machine.Steps step Careful (initial userPath systemPath errorHandling files) is)
    {w : Worker ConfigurationMonitor ConfigurationMonitorJob}
    (hw : run userPath systemPath errorHandling files is = w) (hstream : w.state.stream = true)
    (hunnoticed : w.state.unnoticed = ∅) (hjobs : w.jobs = []) (hcrashed : w.state.crashed = false)
    (hloaded :
      (CoreConfiguration.load w.state.errorHandling w.state.currentDocument).loaded = true) :
    w.state.Shows w.state.currentDocument := by
  have hsound : Sound w := hw ▸ sound_run hcareful
  have hread (path : String) (hpath : path ∈ w.state.targets) : w.state.IsRead path := by
    rcases hsound.tracked hstream path hpath with hmem | ⟨events, hevents, -⟩ | hread
    · rw [hunnoticed] at hmem
      exact absurd hmem (Finset.notMem_empty path)
    · rw [hjobs] at hevents
      exact absurd hevents List.not_mem_nil
    · exact hread
  have huser : w.state.IsRead w.state.userPath := hread _ (by simp [targets])
  have hsystem : w.state.fileBodies w.state.systemPath = some (w.state.files w.state.systemPath) :=
    hread _ (by simp [targets])
  have hnothing (path : String) : fileChanged path ∉ w.jobs := by
    rw [hjobs]
    exact List.not_mem_nil
  have hlast : w.state.documents.getLast? = some w.state.currentDocument := by
    rw [hsound.follows.settled _ huser (hnothing _) fun _ => hnothing _, wanted, hsystem]
    rfl
  exact hsound.follows.shows _ hlast hloaded hcrashed

end

/-- The text of a file whose global configuration is empty. -/
def globalText : String := "\x7b\"global\":\x7b\x7d\x7d"

/-- The user's file is there from the start, and the system's is created later, with another body.
-/
def filesCreated : List Input := [
  .change "user" (some { body := globalText, validOwner := true }), .asyncStart,
  .runJob, .runJob, .runJob, .runJob,
  .change "system" (some { body := "\x7b\x7d", validOwner := true }),
  .events [{ path := "system" }], .runJob, .runJob]

section

local instance : NlohmannJson := NlohmannJson.ofTable
  [("\x7b\x7d", .object []), (globalText, .object [("global", .object [])])]

local instance : NaturalSort := .unordered

/-- `configuration_of_run` for two files: the user's counts. -/
theorem configuration_of_run_filesCreated :
    let s := (run "user" "system" .loose (fun _ => none) filesCreated).state
    s.currentDocument = some (.object [("global", .object [])]) ∧ s.Shows s.currentDocument := by
  refine ⟨rfl, configuration_of_run ?_ rfl (by decide) (by decide) rfl (by decide) (by decide)⟩
  have huser : (run "user" "system" .loose (fun _ => none)
      (filesCreated.take 3)).state.UpToDate := by decide
  have hsystem : (run "user" "system" .loose (fun _ => none)
      (filesCreated.take 4)).state.UpToDate := by decide
  have hnoticed : Noticed { path := "system" }
      (run "user" "system" .loose (fun _ => none) (filesCreated.take 8)).state := by
    intro _
    exact ⟨nofun, nofun, nofun⟩
  have hcreated : (run "user" "system" .loose (fun _ => none)
      (filesCreated.take 9)).state.UpToDate := by decide
  exact ⟨trivial, trivial, trivial, huser, hsystem, trivial, trivial, trivial, ⟨hnoticed, trivial⟩,
    hcreated, trivial⟩

end

section

variable [NlohmannJson] [NaturalSort]

variable {s : ConfigurationMonitor} {jobs : List ConfigurationMonitorJob}
  {userPath systemPath : String} {errorHandling : ErrorHandling}
  {files : String → Option ConfigurationFile}

/-! ### What observers are told -/

omit [NlohmannJson] [NaturalSort] in
/-- A rule for what is enqueued by functions that are done one after another. -/
theorem forall_mem_sequence {α : Type}
    {f : α → ConfigurationMonitor → ConfigurationMonitor × List ConfigurationMonitorJob}
    {P : ConfigurationMonitorJob → Prop} (hf : ∀ x s, ∀ job ∈ (f x s).2, P job) (xs : List α)
    (s : ConfigurationMonitor) : ∀ job ∈ (sequence f xs s).2, P job := by
  induction xs generalizing s with
  | nil => nofun
  | cons x xs ih =>
      intro job hjob
      rcases List.mem_append.mp hjob with hjob | hjob
      · exact hf x s job hjob
      · exact ih (f x s).1 job hjob

omit [NlohmannJson] [NaturalSort] in
/-- What observers are told by a function. -/
def told : ConfigurationMonitorJob → Option CoreConfiguration
  | coreConfigurationUpdated c => some c
  | _ => none

omit [NlohmannJson] [NaturalSort] in
/-- Looking at a file tells the observers nothing by itself: it enqueues a signal at most. -/
theorem told_notice (signal : Bool) (path : String) (s : ConfigurationMonitor) :
    ∀ job ∈ (s.notice signal path).2, told job = none := by
  rcases notice_cases signal path s with ⟨-, heq⟩ | ⟨-, heq⟩ <;> rw [heq]
  · nofun
  · intro job hjob
    cases signal with
    | false => exact absurd hjob List.not_mem_nil
    | true =>
        obtain rfl := List.mem_singleton.mp hjob
        rfl

omit [NlohmannJson] [NaturalSort] in
theorem told_runRegisterStream (s : ConfigurationMonitor) :
    ∀ job ∈ s.runRegisterStream.2, told job = none := by
  unfold ConfigurationMonitor.runRegisterStream
  split_ifs
  · nofun
  · exact forall_mem_sequence (told_notice true) s.targets s

omit [NlohmannJson] [NaturalSort] in
theorem told_handleEvent (e : FsEvent) (s : ConfigurationMonitor) :
    ∀ job ∈ (ConfigurationMonitor.handleEvent e s).2, told job = none := by
  rcases handleEvent_cases e s with ⟨-, heq⟩ | ⟨-, -, -, heq⟩ | ⟨streamFilePaths, -, -, -, heq⟩ <;>
    rw [heq]
  · exact told_runRegisterStream _
  · nofun
  · exact told_notice _ _ _

/-- **What a function does**: it watches the files, it loads one, or it tells observers. -/
theorem exec_cases (job : ConfigurationMonitorJob) (s : ConfigurationMonitor) :
    told job = none ∧ Watched s (exec () job s).1 ∧ (∀ new ∈ (exec () job s).2, told new = none) ∨
    told job = none ∧ (∃ document, exec () job s = s.loadDocument document) ∨
    ∃ c, told job = some c ∧ exec () job s = ({ s with updates := s.updates ++ [c] }, []) := by
  cases job with
  | registerStream => exact .inl ⟨rfl, watched_runRegisterStream s, told_runRegisterStream s⟩
  | streamCallback events =>
      exact .inl ⟨rfl, watched_sequence watched_handleEvent events s,
        forall_mem_sequence told_handleEvent events s⟩
  | fileChanged path =>
      have hexec : exec () (fileChanged path) s = s.runFileChanged path := rfl
      rw [hexec]
      rcases s.runFileChanged_cases path with ⟨-, heq⟩ | ⟨path, -, heq⟩ <;> rw [heq]
      · exact .inl ⟨rfl, .refl s, nofun⟩
      · exact .inr (.inl ⟨rfl, _, rfl⟩)
  | coreConfigurationUpdated c => exact .inr (.inr ⟨c, rfl, rfl⟩)

omit [NlohmannJson] [NaturalSort] in
/-- What observers have been told, and what is on its way to them. -/
def announced (w : Worker ConfigurationMonitor ConfigurationMonitorJob) : List CoreConfiguration :=
  w.state.updates ++ w.jobs.filterMap told

/-- A configuration that replaces another one could be loaded, and is written differently. -/
def Replaces (old new : CoreConfiguration) : Prop :=
  new.loaded = true ∧ (old.toJson == new.toJson) = false

/-- Each configuration replaces the one before, and the last is the current one. -/
structure Announces (w : Worker ConfigurationMonitor ConfigurationMonitorJob) : Prop where
  chain : (announced w).IsChain Replaces
  last : (announced w).getLast? = w.state.coreConfiguration

omit [NaturalSort] in
theorem Announces.congr {w w' : Worker ConfigurationMonitor ConfigurationMonitorJob}
    (h : Announces w) (hannounced : announced w' = announced w)
    (hcore : w'.state.coreConfiguration = w.state.coreConfiguration) : Announces w' := by
  constructor
  · rw [hannounced]
    exact h.chain
  · rw [hannounced, hcore]
    exact h.last

omit [NaturalSort] in
/-- Functions that do not tell observers anything are enqueued. -/
theorem Announces.enqueue {w : Worker ConfigurationMonitor ConfigurationMonitorJob}
    (h : Announces w) {new : List ConfigurationMonitorJob} (hnew : ∀ job ∈ new, told job = none) :
    Announces (w.enqueue new) := by
  refine h.congr ?_ rfl
  show w.state.updates ++ (w.jobs ++ new).filterMap told = w.state.updates ++ w.jobs.filterMap told
  rw [List.filterMap_append, List.filterMap_eq_nil_iff.mpr hnew, List.append_nil]

omit [NaturalSort] in
/-- A configuration is taken, and observers are to be told. -/
theorem Announces.taken (h : Announces ⟨s, jobs⟩) {s' : ConfigurationMonitor}
    {c : CoreConfiguration} (hupdates : s'.updates = s.updates)
    (hcore : s'.coreConfiguration = some c)
    (hold : ∀ old, s.coreConfiguration = some old → Replaces old c) :
    Announces ⟨s', jobs ++ [coreConfigurationUpdated c]⟩ := by
  have htaken : announced ⟨s', jobs ++ [coreConfigurationUpdated c]⟩ =
      announced ⟨s, jobs⟩ ++ [c] := by
    unfold announced
    rw [hupdates, List.filterMap_append, ← List.append_assoc]
    rfl
  constructor
  · rw [htaken, List.isChain_append]
    refine ⟨h.chain, .singleton c, fun old hmem new hnew => ?_⟩
    obtain rfl : c = new := Option.mem_some_iff.mp hnew
    exact hold old (h.last.symm.trans hmem)
  · rw [htaken, List.getLast?_concat]
    exact hcore.symm

/-- A function that has been done has told what it had to tell, and enqueued what is to follow. -/
theorem Announces.exec {job : ConfigurationMonitorJob} (h : Announces ⟨s, job :: jobs⟩) :
    Announces ⟨(exec () job s).1, jobs ++ (exec () job s).2⟩ := by
  rcases exec_cases job s with ⟨htold, hwatched, hnew⟩ | ⟨htold, document, heq⟩ | ⟨c, htold, heq⟩
  · have hrest : Announces ⟨(ConfigurationMonitor.exec () job s).1, jobs⟩ := by
      refine h.congr ?_ hwatched.coreConfiguration
      show (ConfigurationMonitor.exec () job s).1.updates ++ jobs.filterMap told =
        s.updates ++ (job :: jobs).filterMap told
      rw [hwatched.updates, List.filterMap_cons_none htold]
    exact hrest.enqueue hnew
  · have hrest : Announces ⟨s, jobs⟩ := by
      refine h.congr ?_ rfl
      show s.updates ++ jobs.filterMap told = s.updates ++ (job :: jobs).filterMap told
      rw [List.filterMap_cons_none htold]
    rw [heq]
    rcases loadDocument_cases document s rfl with ⟨hold, hload⟩ | ⟨-, hload⟩ | ⟨-, hload⟩ <;>
      rw [hload]
    · exact hrest.taken rfl rfl fun old hcore => ⟨(hold old hcore).1, (hold old hcore).2.2⟩
    · rw [List.append_nil]
      exact hrest.congr rfl rfl
    · rw [List.append_nil]
      exact hrest.congr rfl rfl
  · rw [heq, List.append_nil]
    refine h.congr ?_ rfl
    show (s.updates ++ [c]) ++ jobs.filterMap told = s.updates ++ (job :: jobs).filterMap told
    rw [List.filterMap_cons_some htold, List.append_assoc, List.singleton_append]

/-- **What observers are told**: each configuration could be loaded, unless it is the first, and is
written differently from the one before.  The last is the current one. -/
theorem updates_run (is : List Input) :
    (announced (run userPath systemPath errorHandling files is)).IsChain Replaces ∧
      (announced (run userPath systemPath errorHandling files is)).getLast? =
        (run userPath systemPath errorHandling files is).state.coreConfiguration := by
  have hinitial : Announces (initial userPath systemPath errorHandling files) := ⟨.nil, rfl⟩
  have hkeep (w : Worker ConfigurationMonitor ConfigurationMonitorJob) (i : Input)
      (h : Announces w) : Announces (step w i) := by
    cases i with
    | change path file => exact h.congr rfl rfl
    | events events =>
        show Announces (if w.state.stream then (w.modify (afterEvents events)).enqueue
          [streamCallback events] else w)
        split_ifs
        · have hafter : Announces (w.modify (afterEvents events)) := h.congr rfl rfl
          exact hafter.enqueue (List.forall_mem_singleton.mpr rfl)
        · exact h
    | asyncStart => exact h.enqueue (List.forall_mem_singleton.mpr rfl)
    | runJob =>
        show Announces (if w.state.crashed then w else w.runJob exec ())
        split_ifs
        · exact h
        · obtain ⟨s, jobs⟩ := w
          cases jobs with
          | nil => exact h
          | cons job jobs => exact h.exec
  have hrun : Announces (run userPath systemPath errorHandling files is) :=
    Machine.run_invariant hkeep hinitial is
  exact ⟨hrun.chain, hrun.last⟩

/-! ### When the process ends -/

/-- The first document was JSON but no object, and a later one could be loaded. -/
def Fails (errorHandling : ErrorHandling) : List (Option Json) → Prop
  | [] => False
  | first :: rest => IsNoObject first ∧
      ∃ document ∈ rest, (CoreConfiguration.load errorHandling document).loaded = true

/-- What is known about the configuration from what has been loaded. -/
structure Records (errorHandling : ErrorHandling) (s : ConfigurationMonitor) : Prop where
  handling : s.errorHandling = errorHandling
  crashed : s.crashed = true ↔ Fails errorHandling s.documents
  none : s.coreConfiguration = none → s.documents = []
  some : ∀ c, s.coreConfiguration = some c →
    ∃ first rest, s.documents = first :: rest ∧ (c.toJson = .none ↔ IsNoObject first)

/-- What has been loaded is recorded, whether it could be or not. -/
theorem Records.loadDocument (h : Records errorHandling s) (document : Option Json) :
    Records errorHandling (s.loadDocument document).1 := by
  have hc : CoreConfiguration.load s.errorHandling document =
      CoreConfiguration.load errorHandling document := by rw [h.handling]
  -- Another document matters if the first was no object and this one can be loaded.
  have hfails {old : CoreConfiguration} (hold : s.coreConfiguration = .some old) :
      Fails errorHandling (s.documents ++ [document]) ↔ s.crashed = true ∨ old.toJson = .none ∧
        (CoreConfiguration.load errorHandling document).loaded = true := by
    obtain ⟨first, rest, hdocuments, hfirst⟩ := h.some old hold
    rw [h.crashed, hdocuments, hfirst]
    show _ ∧ (∃ d ∈ rest ++ [document], _) ↔ (_ ∧ ∃ d ∈ rest, _) ∨ _
    simp only [List.mem_append, List.mem_singleton, or_and_right, exists_or, exists_eq_left,
      and_or_left]
  rcases loadDocument_cases document s hc with ⟨hold, heq⟩ | ⟨⟨old, hold, hdropped⟩, heq⟩ |
    ⟨⟨old, hold, hloaded, hthrows⟩, heq⟩ <;> rw [heq]
  · cases hcore : s.coreConfiguration with
    | none =>
        have hdocuments : s.documents ++ [document] = [document] := by
          rw [h.none hcore, List.nil_append]
        refine ⟨h.handling, ?_, nofun, fun c hc => ?_⟩
        · show s.crashed = true ↔ Fails errorHandling (s.documents ++ [document])
          rw [h.crashed, h.none hcore]
          exact iff_of_false id fun hfails => absurd hfails.2 (by simp)
        · obtain rfl := Option.some.inj hc
          exact ⟨document, [], hdocuments, toJson_load_eq_none_iff errorHandling document⟩
    | some old =>
        obtain ⟨first, rest, hdocuments, hfirst⟩ := h.some old hcore
        obtain ⟨hloaded, hwritten, -⟩ := hold old hcore
        refine ⟨h.handling, ?_, nofun, fun c hc => ?_⟩
        · show s.crashed = true ↔ Fails errorHandling (s.documents ++ [document])
          rw [hfails hcore]
          exact (or_iff_left fun hthrows => hwritten hthrows.1).symm
        · obtain rfl := Option.some.inj hc
          refine ⟨first, rest ++ [document], congrArg (· ++ [document]) hdocuments, ?_⟩
          exact iff_of_false (toJson_ne_none_of_loaded hloaded) fun hno => hwritten (hfirst.mpr hno)
  · obtain ⟨first, rest, hdocuments, hfirst⟩ := h.some old hold
    refine ⟨h.handling, ?_, fun hnone => absurd (hold.symm.trans hnone) nofun, fun c hc => ?_⟩
    · show s.crashed = true ↔ Fails errorHandling (s.documents ++ [document])
      rw [hfails hold]
      refine (or_iff_left ?_).symm
      rintro ⟨hthrows, hloaded⟩
      rcases hdropped with hnot | ⟨hwritten, -⟩
      · exact absurd (hnot.symm.trans hloaded) Bool.false_ne_true
      · exact hwritten hthrows
    · obtain rfl := Option.some.inj (hold.symm.trans hc)
      exact ⟨first, rest ++ [document], congrArg (· ++ [document]) hdocuments, hfirst⟩
  · obtain ⟨first, rest, hdocuments, hfirst⟩ := h.some old hold
    refine ⟨h.handling, ?_, fun hnone => absurd (hold.symm.trans hnone) nofun, fun c hc => ?_⟩
    · show true = true ↔ Fails errorHandling (s.documents ++ [document])
      rw [hfails hold]
      exact iff_of_true rfl (.inr ⟨hthrows, hloaded⟩)
    · obtain rfl := Option.some.inj (hold.symm.trans hc)
      exact ⟨first, rest ++ [document], congrArg (· ++ [document]) hdocuments, hfirst⟩

theorem Records.congr (h : Records errorHandling s) {s' : ConfigurationMonitor}
    (hw : Watched s s') : Records errorHandling s' := by
  constructor
  · rw [hw.errorHandling]
    exact h.handling
  · rw [hw.crashed, hw.documents]
    exact h.crashed
  · rw [hw.coreConfiguration, hw.documents]
    exact h.none
  · rw [hw.coreConfiguration, hw.documents]
    exact h.some

/-- A function of the dispatcher. -/
theorem Records.exec (h : Records errorHandling s) (job : ConfigurationMonitorJob) :
    Records errorHandling (exec () job s).1 := by
  rcases exec_cases job s with ⟨-, hwatched, -⟩ | ⟨-, document, heq⟩ | ⟨c, -, heq⟩
  · exact h.congr hwatched
  · rw [heq]
    exact h.loadDocument document
  · rw [heq]
    exact ⟨h.handling, h.crashed, h.none, h.some⟩

/-- **When the process ends**: `to_json` throws if the first document was JSON but no object, as
soon as another one can be loaded. -/
theorem crashed_iff (is : List Input) :
    (run userPath systemPath errorHandling files is).state.crashed = true ↔
      Fails errorHandling (run userPath systemPath errorHandling files is).state.documents := by
  have hinitial : Records errorHandling (initial userPath systemPath errorHandling files).state :=
    ⟨rfl, iff_of_false nofun id, fun _ => rfl, nofun⟩
  have hkeep (w : Worker ConfigurationMonitor ConfigurationMonitorJob) (i : Input)
      (h : Records errorHandling w.state) : Records errorHandling (step w i).state := by
    cases i with
    | change path file => exact ⟨h.handling, h.crashed, h.none, h.some⟩
    | events events =>
        show Records errorHandling (if w.state.stream then (w.modify (afterEvents events)).enqueue
          [streamCallback events] else w).state
        split_ifs
        · exact ⟨h.handling, h.crashed, h.none, h.some⟩
        · exact h
    | asyncStart => exact h
    | runJob =>
        show Records errorHandling (if w.state.crashed then w else w.runJob exec ()).state
        split_ifs
        · exact h
        · obtain ⟨s, jobs⟩ := w
          cases jobs with
          | nil => exact h
          | cons job jobs => exact h.exec job
  have hrun := @Machine.run_invariant _ _ step (fun w => Records errorHandling w.state) hkeep
    (initial userPath systemPath errorHandling files) hinitial is
  exact hrun.crashed

end

end ConfigurationMonitor

end Karabiner
