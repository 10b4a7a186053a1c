import Karabiner.Dispatcher.Timer
import Karabiner.Library.Machine
import Karabiner.Library.Toggles

/-!
# The monitor of a device

`vendor/include/pqrs/osx/iokit_hid_queue_value_monitor.hpp`: a device is opened and closed in the
run loop thread, while `async_start` and `async_stop` are called in the dispatcher thread.  A
request is a field that both threads use; what is done about it are jobs of the run loop and a timer
that tries to open the device again and again.

`start` reads the request, closes and opens the device, and then writes the request — as it is by
then — to `current_open_options_`.  A request that is made while the device is being opened makes
`current_open_options_`, and with it `seized`, say something else than what the device is open with.

* `currentOpenOptions_eq_requested` — **at rest, the current options are the requested ones**, with
  such requests or without.
* `exists_rest` — the threads can always come to rest without another request, so none is lost.
* `truthful_iff` — **when the current options are what the device is open with**: exactly when every
  opening ends with the request with which it has begun.
* `signals_run` — then `started` and `stopped` take turns, and the last of them says whether the
  device is open.
-/

namespace Karabiner

open Dispatcher (Timer)

/-- The jobs of the run loop thread. -/
inductive RunLoopJob
  /-- The block of `async_start`. -/
  | startTimer
  /-- The block of the timer. -/
  | start
  /-- The block of `async_stop`. -/
  | stop
deriving DecidableEq, Repr

/-- The signals of the monitor. -/
inductive MonitorSignal
  | started
  | stopped
deriving DecidableEq, Repr

/-- `iokit_hid_queue_value_monitor`.  Options are whether the device is seized.  `opening` are the
options that `start` is about to open the device with.  Two fields are not in the source: what the
device is open with, and the signals so far. -/
structure HidQueueValueMonitor where
  requestedOpenOptions : Option Bool := none
  currentOpenOptions : Option Bool := none
  openTimer : Timer Unit := {}
  jobs : List RunLoopJob := []
  opening : Option Bool := none
  openedWith : Option Bool := none
  signals : List MonitorSignal := []

namespace HidQueueValueMonitor

/-! ### The methods -/

/-- `async_start`. -/
def asyncStart (seize : Bool) (m : HidQueueValueMonitor) : HidQueueValueMonitor :=
  { m with requestedOpenOptions := some seize, jobs := m.jobs ++ [.startTimer] }

/-- `async_stop`. -/
def asyncStop (m : HidQueueValueMonitor) : HidQueueValueMonitor :=
  { m with requestedOpenOptions := none, jobs := m.jobs ++ [.stop] }

/-- `seized`. -/
def seized (m : HidQueueValueMonitor) : Bool := m.currentOpenOptions = some true

/-- `stop`. -/
def stop (checkRequestedOpenOptions : Bool) (m : HidQueueValueMonitor) : HidQueueValueMonitor :=
  if m.currentOpenOptions = none then m
  else if checkRequestedOpenOptions && m.requestedOpenOptions.isSome then m
  else
    { m with
      currentOpenOptions := none
      openedWith := none
      signals := m.signals ++ [.stopped] }

/-- The end of `start`. -/
def finish (m : HidQueueValueMonitor) : HidQueueValueMonitor :=
  { m with openTimer := m.openTimer.stop }

/-- `start` up to `IOHIDDeviceOpen`. -/
def start (m : HidQueueValueMonitor) : HidQueueValueMonitor :=
  match m.requestedOpenOptions with
  | none => m.finish
  | some openOptions =>
    if m.currentOpenOptions = some openOptions then m.finish
    else { m.stop false with opening := some openOptions }

/-- `start` after `IOHIDDeviceOpen`. -/
def opened (success : Bool) (openOptions : Bool) (m : HidQueueValueMonitor) :
    HidQueueValueMonitor :=
  let m := { m with opening := none }
  if success then
    finish { m with
      openedWith := some openOptions
      -- The request may have changed since `start` has read it.
      currentOpenOptions := m.requestedOpenOptions
      signals := m.signals ++ [.started] }
  -- Retry
  else m

/-- A job of the run loop thread. -/
def runJob (m : HidQueueValueMonitor) : RunLoopJob → HidQueueValueMonitor
  | .startTimer => { m with openTimer := m.openTimer.start () 1000 }
  | .start => m.start
  | .stop => m.stop true

/-! ### The machine -/

/-- What may happen, in any order. -/
inductive Input
  /-- `async_start` or `async_stop`, in the dispatcher thread. -/
  | request (openOptions : Option Bool)
  /-- The run loop thread runs its next job, unless it is waiting for `IOHIDDeviceOpen`. -/
  | runLoop
  /-- `IOHIDDeviceOpen` returns. -/
  | opened (success : Bool)
  /-- The dispatcher runs the next job of the timer. -/
  | timerJob
  /-- A reserved call of the timer is due. -/
  | timerDue (n : ℕ)
  /-- `device_removal_callback`. -/
  | deviceRemoved
deriving DecidableEq, Repr

/-- A request. -/
def request (openOptions : Option Bool) (m : HidQueueValueMonitor) : HidQueueValueMonitor :=
  match openOptions with
  | some seize => m.asyncStart seize
  | none => m.asyncStop

/-- One step. -/
def step (m : HidQueueValueMonitor) : Input → HidQueueValueMonitor
  | .request openOptions => m.request openOptions
  | .runLoop =>
    match m.opening, m.jobs with
    | none, job :: jobs => { m with jobs }.runJob job
    | _, _ => m
  | .opened success =>
    match m.opening with
    | some openOptions => m.opened success openOptions
    | none => m
  | .timerJob =>
    let (openTimer, called) := m.openTimer.runJob
    { m with openTimer, jobs := m.jobs ++ (called.map fun _ => RunLoopJob.start).toList }
  | .timerDue n => { m with openTimer := m.openTimer.due n }
  | .deviceRemoved =>
    match m.opening with
    | none => m.stop false
    | some _ => m

/-- The monitor after a run. -/
abbrev run (is : List Input) : HidQueueValueMonitor := Machine.run step {} is

/-! ### Rest -/

/-- Something is done about a request that is not the current one. -/
structure Attended (m : HidQueueValueMonitor) : Prop where
  stops : m.requestedOpenOptions = none → m.currentOpenOptions ≠ none → .stop ∈ m.jobs
  starts : m.requestedOpenOptions ≠ none → m.currentOpenOptions ≠ m.requestedOpenOptions →
    .startTimer ∈ m.jobs ∨ m.openTimer.enabled = true

/-- A request to start queues the job that attends to it. -/
theorem Attended.asyncStart {m : HidQueueValueMonitor} (seize : Bool) :
    (m.asyncStart seize).Attended where
  stops h := by cases h
  starts _ _ := .inl (by simp [HidQueueValueMonitor.asyncStart])

theorem Attended.asyncStop {m : HidQueueValueMonitor} : m.asyncStop.Attended where
  stops _ _ := by simp [HidQueueValueMonitor.asyncStop]
  starts h := absurd rfl h

@[simp] theorem requestedOpenOptions_stop (check : Bool) (m : HidQueueValueMonitor) :
    (m.stop check).requestedOpenOptions = m.requestedOpenOptions := by
  unfold stop
  split_ifs <;> rfl

@[simp] theorem jobs_stop (check : Bool) (m : HidQueueValueMonitor) :
    (m.stop check).jobs = m.jobs := by
  unfold stop
  split_ifs <;> rfl

@[simp] theorem openTimer_stop (check : Bool) (m : HidQueueValueMonitor) :
    (m.stop check).openTimer = m.openTimer := by
  unfold stop
  split_ifs <;> rfl

@[simp] theorem requestedOpenOptions_runJob (m : HidQueueValueMonitor) (job : RunLoopJob) :
    (m.runJob job).requestedOpenOptions = m.requestedOpenOptions := by
  cases job with
  | startTimer => rfl
  | stop => exact requestedOpenOptions_stop true m
  | start =>
      unfold HidQueueValueMonitor.runJob HidQueueValueMonitor.start
      dsimp only
      split
      · rfl
      · split_ifs
        · rfl
        · exact requestedOpenOptions_stop false m

@[simp] theorem requestedOpenOptions_request (openOptions : Option Bool)
    (m : HidQueueValueMonitor) : (m.request openOptions).requestedOpenOptions = openOptions := by
  cases openOptions <;> rfl

/-- Only a request changes the request. -/
theorem requestedOpenOptions_step (m : HidQueueValueMonitor) {i : Input}
    (hi : ∀ openOptions, i ≠ .request openOptions) :
    (HidQueueValueMonitor.step m i).requestedOpenOptions = m.requestedOpenOptions := by
  cases i with
  | request openOptions => exact absurd rfl (hi openOptions)
  | runLoop =>
      unfold HidQueueValueMonitor.step
      dsimp only
      split
      · exact requestedOpenOptions_runJob _ _
      · rfl
  | opened success =>
      unfold HidQueueValueMonitor.step HidQueueValueMonitor.opened
      dsimp only
      split
      · cases success <;> rfl
      · rfl
  | timerJob => rfl
  | timerDue n => rfl
  | deviceRemoved =>
      unfold HidQueueValueMonitor.step
      dsimp only
      split
      · exact requestedOpenOptions_stop false m
      · rfl

/-- A stop leaves the monitor as it is, or closed. -/
theorem currentOpenOptions_stop (check : Bool) (m : HidQueueValueMonitor) :
    (m.stop check).currentOpenOptions =
      if check && m.requestedOpenOptions.isSome then m.currentOpenOptions else none := by
  unfold stop
  by_cases hcurrent : m.currentOpenOptions = none
  · rw [if_pos hcurrent, hcurrent, ite_self]
  · rw [if_neg hcurrent]
    split_ifs <;> rfl

/-- The job that is run attends to its request. -/
theorem Attended.runJob {m : HidQueueValueMonitor} (h : m.Attended) {job : RunLoopJob}
    {jobs : List RunLoopJob} (hjobs : m.jobs = job :: jobs) :
    (HidQueueValueMonitor.runJob { m with jobs } job).Attended := by
  have hmem {j : RunLoopJob} (hj : j ∈ m.jobs) (hne : j ≠ job) : j ∈ jobs := by
    rw [hjobs] at hj
    exact (List.mem_cons.mp hj).resolve_left hne
  cases job with
  | startTimer => exact ⟨fun hnone hcurrent => hmem (h.stops hnone hcurrent) (by decide),
      fun _ _ => .inr rfl⟩
  | stop =>
      have hcurrent := currentOpenOptions_stop true { m with jobs }
      dsimp only at hcurrent
      refine ⟨fun hnone hne => ?_, fun hsome hne => ?_⟩
      · rw [HidQueueValueMonitor.runJob, requestedOpenOptions_stop] at hnone
        rw [HidQueueValueMonitor.runJob, hcurrent, hnone] at hne
        exact absurd rfl hne
      · rw [HidQueueValueMonitor.runJob, requestedOpenOptions_stop] at hsome
        rw [HidQueueValueMonitor.runJob, requestedOpenOptions_stop, hcurrent,
          Option.isSome_iff_ne_none.mpr hsome] at hne
        rw [HidQueueValueMonitor.runJob, jobs_stop, openTimer_stop]
        exact (h.starts hsome hne).imp_left fun hj => hmem hj (by decide)
  | start =>
      unfold HidQueueValueMonitor.runJob HidQueueValueMonitor.start
      dsimp only
      split
      · next hrequested =>
          exact ⟨fun hnone hcurrent => hmem (h.stops hnone hcurrent) (by decide),
            fun hsome => absurd hrequested hsome⟩
      · next openOptions hrequested =>
          split_ifs with hcurrent
          · refine ⟨fun hnone => ?_, fun _ hne => absurd (hcurrent.trans hrequested.symm) hne⟩
            rw [HidQueueValueMonitor.finish, hrequested] at hnone
            cases hnone
          · have hne : m.currentOpenOptions ≠ m.requestedOpenOptions := by
              rwa [hrequested]
            have hsome : m.requestedOpenOptions ≠ none := by
              rw [hrequested]
              exact Option.some_ne_none openOptions
            refine ⟨fun hnone => ?_, fun _ _ => ?_⟩
            · rw [requestedOpenOptions_stop] at hnone
              exact absurd hnone hsome
            · rw [jobs_stop, openTimer_stop]
              exact (h.starts hsome hne).imp_left fun hj => hmem hj (by decide)

/-- Every step but the removal of the device keeps it. -/
theorem Attended.step {m : HidQueueValueMonitor} (h : m.Attended) {i : Input}
    (hi : i ≠ .deviceRemoved) : (HidQueueValueMonitor.step m i).Attended := by
  cases i with
  | request openOptions =>
      cases openOptions with
      | none => exact .asyncStop
      | some seize => exact .asyncStart seize
  | runLoop =>
      unfold HidQueueValueMonitor.step
      dsimp only
      split
      · next hjobs => exact h.runJob hjobs
      · exact h
  | opened success =>
      unfold HidQueueValueMonitor.step HidQueueValueMonitor.opened
      dsimp only
      split
      · cases success with
        | true => exact ⟨fun hnone hne => absurd hnone hne, fun _ hne => absurd rfl hne⟩
        | false => exact ⟨h.stops, h.starts⟩
      · exact h
  | timerJob =>
      have henabled := m.openTimer.enabled_runJob
      refine ⟨fun hnone hne => List.mem_append_left _ (h.stops hnone hne), fun hsome hne => ?_⟩
      exact (h.starts hsome hne).imp (List.mem_append_left _) henabled.trans
  | timerDue n =>
      exact ⟨h.stops, fun hsome hne => (h.starts hsome hne).imp_right (Timer.enabled_due n _).trans⟩
  | deviceRemoved => exact absurd rfl hi

/-- While the device is there, something is always done about a request that is not the current one.
-/
theorem attended_run {is : List Input} (his : .deviceRemoved ∉ is) : (run is).Attended := by
  have hinit : ({} : HidQueueValueMonitor).Attended :=
    ⟨fun _ h => absurd rfl h, fun h => absurd rfl h⟩
  have hsteps : Machine.Steps HidQueueValueMonitor.step
      (fun _ i => i ≠ Input.deviceRemoved) {} is := by
    rw [Machine.steps_iff_forall]
    rintro before i after rfl
    exact fun hi => his (by simp [hi])
  exact Machine.steps_invariant (fun m i hi h => h.step hi) hinit hsteps

/-- Nothing is left to be done. -/
structure AtRest (m : HidQueueValueMonitor) : Prop where
  jobs : m.jobs = []
  timer : m.openTimer.enabled = false

instance (m : HidQueueValueMonitor) : Decidable m.AtRest :=
  decidable_of_iff (m.jobs = [] ∧ m.openTimer.enabled = false)
    ⟨fun h => ⟨h.1, h.2⟩, fun h => ⟨h.jobs, h.timer⟩⟩

/-- At rest nothing is left to be done, so the current options are the requested ones. -/
theorem Attended.currentOpenOptions_eq {m : HidQueueValueMonitor} (h : m.Attended)
    (hrest : m.AtRest) : m.currentOpenOptions = m.requestedOpenOptions := by
  by_contra hne
  cases hrequested : m.requestedOpenOptions with
  | none =>
      have hmem := h.stops hrequested (hrequested ▸ hne)
      rw [hrest.jobs] at hmem
      exact absurd hmem List.not_mem_nil
  | some openOptions =>
      rcases h.starts (by simp [hrequested]) hne with hmem | henabled
      · rw [hrest.jobs] at hmem
        exact absurd hmem List.not_mem_nil
      · rw [hrest.timer] at henabled
        exact absurd henabled Bool.false_ne_true

/-- **At rest, the current options are the requested ones.** -/
theorem currentOpenOptions_eq_requested {is : List Input} (his : .deviceRemoved ∉ is)
    (hrest : (run is).AtRest) : (run is).currentOpenOptions = (run is).requestedOpenOptions :=
  (attended_run his).currentOpenOptions_eq hrest

/-- `currentOpenOptions_eq_requested` for a device that is stopped while it is being opened. -/
theorem currentOpenOptions_eq_requested_stopWhileOpening :
    let is : List Input := [.request (some true), .runLoop, .timerJob, .timerJob, .runLoop,
      .request none, .opened true, .runLoop, .timerJob]
    (run is).currentOpenOptions = (run is).requestedOpenOptions :=
  currentOpenOptions_eq_requested (by decide) (by decide)

/-! ### Coming to rest -/

/-- A step of one of the two threads, in which the device can be opened. -/
def Input.IsThread : Input → Prop
  | .runLoop | .opened true | .timerJob | .timerDue _ => True
  | .request _ | .opened false | .deviceRemoved => False

/-- The threads can bring a monitor there without a request. -/
def Reaches (m m' : HidQueueValueMonitor) : Prop :=
  ∃ is : List Input, (∀ i ∈ is, i.IsThread) ∧ Machine.run HidQueueValueMonitor.step m is = m'

theorem Reaches.refl (m : HidQueueValueMonitor) : m.Reaches m := ⟨[], nofun, rfl⟩

theorem Reaches.trans {m₁ m₂ m₃ : HidQueueValueMonitor} (h₁ : m₁.Reaches m₂)
    (h₂ : m₂.Reaches m₃) : m₁.Reaches m₃ := by
  obtain ⟨is, his, rfl⟩ := h₁
  obtain ⟨js, hjs, rfl⟩ := h₂
  refine ⟨is ++ js, fun i hi => ?_, Machine.run_append _ _ _ _⟩
  exact (List.mem_append.mp hi).elim (his i) (hjs i)

/-- One step of a thread. -/
theorem reaches_step {m m' : HidQueueValueMonitor} (i : Input) (hi : i.IsThread)
    (h : HidQueueValueMonitor.step m i = m') : m.Reaches m' :=
  ⟨[i], fun _ hj => List.mem_singleton.mp hj ▸ hi, h⟩

/-- An enabled timer calls its function: once its jobs have run, a call is reserved. -/
structure TimerCalls (t : Timer Unit) : Prop where
  coherent : t.Coherent
  reserved : t.function.isSome → t.currentFunctionId ∈ t.reserved

theorem TimerCalls.start {t : Timer Unit} (h : TimerCalls t) (interval : ℤ) :
    TimerCalls (t.start () interval) :=
  ⟨Timer.coherent_start () interval t, h.reserved⟩

theorem TimerCalls.stop {t : Timer Unit} (h : TimerCalls t) : TimerCalls t.stop :=
  ⟨Timer.coherent_stop t, h.reserved⟩

/-- A job of the timer keeps a call reserved while there is a function. -/
theorem TimerCalls.runJob {t : Timer Unit} (h : TimerCalls t) : TimerCalls t.runJob.1 := by
  refine ⟨h.coherent.runJob, ?_⟩
  unfold Timer.runJob
  split
  · exact h.reserved
  · next job jobs _ =>
      cases job with
      | start f interval => simp [Timer.run, Timer.callFunction, Timer.enqueueCall, Timer.enqueue]
      | stop => exact nofun
      | setInterval interval => simp [Timer.run, Timer.enqueue]
      | call f => exact h.reserved

theorem TimerCalls.due {t : Timer Unit} (h : TimerCalls t) (n : ℕ) : TimerCalls (t.due n) := by
  refine ⟨h.coherent.due n, ?_⟩
  unfold Timer.due
  split
  · exact h.reserved
  · next functionId hn =>
      unfold Timer.callFunction
      split_ifs with hid
      · intro hfunction
        have hmem := h.reserved hfunction
        obtain ⟨k, hk, hget⟩ := List.mem_iff_getElem.mp hmem
        have hne : k ≠ n := by
          rintro rfl
          rw [List.getElem?_eq_getElem hk, hget] at hn
          exact hid (Option.some.inj hn)
        exact (List.mem_eraseIdx_iff_getElem).mpr ⟨k, hk, hne, hget⟩
      · unfold Timer.enqueueCall Timer.enqueue
        split <;> simp_all

/-- Whatever happens, a timer with a function has a call reserved. -/
theorem timerCalls_step {m : HidQueueValueMonitor} (h : TimerCalls m.openTimer) (i : Input) :
    TimerCalls (HidQueueValueMonitor.step m i).openTimer := by
  cases i with
  | request openOptions => cases openOptions <;> exact h
  | runLoop =>
      unfold HidQueueValueMonitor.step
      dsimp only
      split
      · next job jobs _ _ =>
          cases job with
          | startTimer => exact h.start 1000
          | stop =>
              rw [HidQueueValueMonitor.runJob, openTimer_stop]
              exact h
          | start =>
              unfold HidQueueValueMonitor.runJob HidQueueValueMonitor.start
              dsimp only
              split
              · exact h.stop
              · split_ifs
                · exact h.stop
                · show TimerCalls (HidQueueValueMonitor.stop false _).openTimer
                  rw [openTimer_stop]
                  exact h
      · exact h
  | opened success =>
      unfold HidQueueValueMonitor.step
      cases m.opening with
      | none => exact h
      | some openOptions =>
          cases success with
          | true => exact h.stop
          | false => exact h
  | timerJob => exact h.runJob
  | timerDue n => exact h.due n
  | deviceRemoved =>
      unfold HidQueueValueMonitor.step
      dsimp only
      split
      · rw [openTimer_stop]
        exact h
      · exact h

/-- In every reachable state a timer with a function has a call reserved. -/
theorem timerCalls_run (is : List Input) : TimerCalls (run is).openTimer :=
  @Machine.run_invariant _ _ HidQueueValueMonitor.step (fun m => TimerCalls m.openTimer)
    (fun _ i h => timerCalls_step h i) {} ⟨rfl, nofun⟩ is

/-- What the threads keep on their way. -/
structure OnTheWay (m m' : HidQueueValueMonitor) : Prop where
  reaches : m.Reaches m'
  requestedOpenOptions : m'.requestedOpenOptions = m.requestedOpenOptions
  opening : m'.opening = none
  timerCalls : TimerCalls m'.openTimer

theorem OnTheWay.trans {m₁ m₂ m₃ : HidQueueValueMonitor} (h₁ : m₁.OnTheWay m₂)
    (h₂ : m₂.OnTheWay m₃) : m₁.OnTheWay m₃ :=
  ⟨h₁.reaches.trans h₂.reaches, h₂.requestedOpenOptions.trans h₁.requestedOpenOptions, h₂.opening,
    h₂.timerCalls⟩

/-- The device can be opened, if it is about to be. -/
theorem exists_opened {m : HidQueueValueMonitor} (h : TimerCalls m.openTimer) :
    ∃ m', m.OnTheWay m' := by
  cases hopening : m.opening with
  | none => exact ⟨m, .refl m, rfl, hopening, h⟩
  | some openOptions =>
      have hstep : HidQueueValueMonitor.step m (.opened true) = m.opened true openOptions := by
        rw [HidQueueValueMonitor.step, hopening]
      exact ⟨_, reaches_step (.opened true) trivial hstep, rfl, rfl, h.stop⟩

/-- A `start` of the run loop stops the timer in the end. -/
theorem exists_start {m : HidQueueValueMonitor} (h : TimerCalls m.openTimer)
    (hopening : m.opening = none) {jobs : List RunLoopJob} (hjobs : m.jobs = .start :: jobs) :
    ∃ m', m.OnTheWay m' ∧ m'.jobs = jobs ∧ m'.openTimer.enabled = false := by
  have hstep : HidQueueValueMonitor.step m .runLoop =
      HidQueueValueMonitor.start { m with jobs } := by
    rw [HidQueueValueMonitor.step, hopening, hjobs]
    rfl
  unfold HidQueueValueMonitor.start at hstep
  dsimp only at hstep
  split at hstep
  · exact ⟨_, ⟨reaches_step .runLoop trivial hstep, rfl, hopening, h.stop⟩, rfl, rfl⟩
  · next openOptions _ =>
      split_ifs at hstep
      · exact ⟨_, ⟨reaches_step .runLoop trivial hstep, rfl, hopening, h.stop⟩, rfl, rfl⟩
      · have hreaches := reaches_step .runLoop trivial hstep
        refine ⟨_, ⟨hreaches.trans (reaches_step (.opened true) trivial rfl), ?_, rfl, ?_⟩,
          ?_, rfl⟩
        · exact requestedOpenOptions_stop false { m with jobs }
        · show TimerCalls (HidQueueValueMonitor.stop false _).openTimer.stop
          rw [openTimer_stop]
          exact h.stop
        · exact jobs_stop false { m with jobs }

/-- The run loop can run all its jobs.  The timer is not enabled afterwards if the last of them was
`start`, or if there was none and it was not enabled before. -/
theorem exists_drained {m : HidQueueValueMonitor} (h : TimerCalls m.openTimer)
    (hopening : m.opening = none) :
    ∃ m', m.OnTheWay m' ∧ m'.jobs = [] ∧
      (m.jobs.getLast? = some .start ∨ m.jobs = [] ∧ m.openTimer.enabled = false →
        m'.openTimer.enabled = false) := by
  generalize hjobs : m.jobs = jobs
  induction jobs generalizing m with
  | nil => exact ⟨m, ⟨.refl m, rfl, hopening, h⟩, hjobs, fun hor => hor.elim nofun And.right⟩
  | cons job jobs ih =>
      obtain ⟨m₁, hway, hrest, hstopped⟩ : ∃ m₁, m.OnTheWay m₁ ∧ m₁.jobs = jobs ∧
          (job = .start → m₁.openTimer.enabled = false) := by
        have hstep : HidQueueValueMonitor.step m .runLoop =
            HidQueueValueMonitor.runJob { m with jobs } job := by
          rw [HidQueueValueMonitor.step, hopening, hjobs]
        cases job with
        | start =>
            obtain ⟨m₁, hway, hrest, hstopped⟩ := exists_start h hopening hjobs
            exact ⟨m₁, hway, hrest, fun _ => hstopped⟩
        | startTimer =>
            exact ⟨_, ⟨reaches_step .runLoop trivial hstep, rfl, hopening, h.start 1000⟩, rfl,
              nofun⟩
        | stop =>
            refine ⟨_,
              ⟨reaches_step .runLoop trivial hstep, requestedOpenOptions_stop true _, ?_, ?_⟩,
              jobs_stop true _, nofun⟩
            · unfold HidQueueValueMonitor.runJob HidQueueValueMonitor.stop
              dsimp only
              split_ifs <;> exact hopening
            · rw [HidQueueValueMonitor.runJob, openTimer_stop]
              exact h
      obtain ⟨m₂, hway₂, hdrained, hlast⟩ := ih hway.timerCalls hway.opening hrest
      refine ⟨m₂, hway.trans hway₂, hdrained, fun hor => ?_⟩
      have hgetLast := hor.resolve_right fun hnil => List.cons_ne_nil _ _ hnil.1
      cases jobs with
      | nil => exact hlast (.inr ⟨rfl, hstopped (by simpa using hgetLast)⟩)
      | cons job' jobs => exact hlast (.inl hgetLast)

/-- A `start` of the timer is followed by a call, which is a job as well. -/
def timerJobWeight : Dispatcher.TimerJob Unit → ℕ
  | .start _ _ => 2
  | _ => 1

/-- The dispatcher runs the next job of the timer. -/
theorem onTheWay_timerJob {m : HidQueueValueMonitor} (h : TimerCalls m.openTimer)
    (hopening : m.opening = none) : m.OnTheWay (HidQueueValueMonitor.step m .timerJob) :=
  ⟨reaches_step .timerJob trivial rfl, rfl, hopening, h.runJob⟩

/-- The dispatcher can run all jobs of the timer. -/
theorem exists_timerDrained {m : HidQueueValueMonitor} (h : TimerCalls m.openTimer)
    (hopening : m.opening = none) :
    ∃ m', m.OnTheWay m' ∧ m'.openTimer.jobs = [] ∧
      m'.openTimer.enabled = m.openTimer.enabled := by
  generalize hweight : (m.openTimer.jobs.map timerJobWeight).sum = weight
  induction weight using Nat.strong_induction_on generalizing m with
  | _ weight ih =>
      cases hjobs : m.openTimer.jobs with
      | nil => exact ⟨m, ⟨.refl m, rfl, hopening, h⟩, hjobs, rfl⟩
      | cons job jobs =>
          have hway := onTheWay_timerJob h hopening
          have hless : ((HidQueueValueMonitor.step m .timerJob).openTimer.jobs.map
              timerJobWeight).sum < weight := by
            show (m.openTimer.runJob.1.jobs.map timerJobWeight).sum < weight
            rw [← hweight, Timer.runJob, hjobs]
            cases job with
            | start f interval =>
                simp [Timer.run, Timer.callFunction, Timer.enqueueCall, Timer.enqueue,
                  timerJobWeight]
                omega
            | _ => simp [Timer.run, Timer.enqueue, timerJobWeight]
          obtain ⟨m', hway', hdrained, henabled⟩ := ih _ hless hway.timerCalls hway.opening rfl
          exact ⟨m', hway.trans hway', hdrained, henabled.trans m.openTimer.enabled_runJob⟩

/-- An enabled timer can call its function, which enqueues `start`. -/
theorem exists_called {m : HidQueueValueMonitor} (h : TimerCalls m.openTimer)
    (hopening : m.opening = none) (hjobs : m.openTimer.jobs = [])
    (henabled : m.openTimer.enabled = true) :
    ∃ m', m.OnTheWay m' ∧ m'.jobs.getLast? = some .start := by
  have hfunction : m.openTimer.function.isSome = true :=
    (h.coherent.isSome_function hjobs).trans henabled
  obtain ⟨f, hf⟩ := Option.isSome_iff_exists.mp hfunction
  obtain ⟨n, hn⟩ := List.mem_iff_getElem?.mp (h.reserved hfunction)
  have hdue : (m.openTimer.due n).jobs = [.call f] := by
    simp [Timer.due, hn, Timer.callFunction, Timer.enqueueCall, Timer.enqueue, hf, hjobs]
  have hway : m.OnTheWay (HidQueueValueMonitor.step m (.timerDue n)) :=
    ⟨reaches_step (.timerDue n) trivial rfl, rfl, hopening, h.due n⟩
  refine ⟨_, hway.trans (onTheWay_timerJob hway.timerCalls hway.opening), ?_⟩
  show (m.jobs ++ ((m.openTimer.due n).runJob.2.map fun _ => RunLoopJob.start).toList).getLast? =
    some .start
  rw [Timer.runJob, hdue]
  simp [Timer.run]

/-- **The threads can always bring the monitor to rest**: no request is lost. -/
theorem exists_rest {is : List Input} (his : .deviceRemoved ∉ is) :
    ∃ js : List Input, (∀ j ∈ js, j.IsThread) ∧ (run (is ++ js)).AtRest ∧
      (run (is ++ js)).currentOpenOptions = (run is).requestedOpenOptions := by
  obtain ⟨m', hway, hjobs, hstopped⟩ : ∃ m', (run is).OnTheWay m' ∧ m'.jobs = [] ∧
      m'.openTimer.enabled = false := by
    obtain ⟨m₁, hway₁⟩ := exists_opened (timerCalls_run is)
    obtain ⟨m₂, hway₂, hjobs₂, -⟩ := exists_drained hway₁.timerCalls hway₁.opening
    have hway₂ := hway₁.trans hway₂
    cases henabled : m₂.openTimer.enabled with
    | false => exact ⟨m₂, hway₂, hjobs₂, henabled⟩
    | true =>
        obtain ⟨m₃, hway₃, hjobs₃, henabled₃⟩ := exists_timerDrained hway₂.timerCalls hway₂.opening
        obtain ⟨m₄, hway₄, hlast⟩ := exists_called hway₃.timerCalls hway₃.opening hjobs₃
          (henabled₃.trans henabled)
        obtain ⟨m₅, hway₅, hjobs₅, hstopped⟩ := exists_drained hway₄.timerCalls hway₄.opening
        exact ⟨m₅, hway₂.trans (hway₃.trans (hway₄.trans hway₅)), hjobs₅, hstopped (.inl hlast)⟩
  obtain ⟨js, hjs, rfl⟩ := hway.reaches
  rw [run, ← Machine.run_append] at hjobs hstopped
  have hremoved : Input.deviceRemoved ∉ is ++ js := fun hmem =>
    (List.mem_append.mp hmem).elim his (hjs _)
  have hrequested := hway.requestedOpenOptions
  rw [run, ← Machine.run_append] at hrequested
  refine ⟨js, hjs, ⟨hjobs, hstopped⟩, ?_⟩
  rw [(attended_run hremoved).currentOpenOptions_eq ⟨hjobs, hstopped⟩]
  exact hrequested

/-- `exists_rest` for a device that is to be seized. -/
theorem exists_rest_seize :
    ∃ js : List Input, (∀ j ∈ js, j.IsThread) ∧ (run ([.request (some true)] ++ js)).AtRest ∧
      (run ([.request (some true)] ++ js)).currentOpenOptions = some true :=
  exists_rest (by decide)

/-! ### What the device is open with -/

/-- The current options are what the device is open with. -/
def Truthful (m : HidQueueValueMonitor) : Prop := m.openedWith = m.currentOpenOptions

/-- An opening that succeeds ends with the request with which it has begun. -/
def CommitsDecided (m : HidQueueValueMonitor) (i : Input) : Prop :=
  i = .opened true → ∀ openOptions, m.opening = some openOptions →
    m.requestedOpenOptions = some openOptions

theorem Truthful.stop {m : HidQueueValueMonitor} (h : m.Truthful) (check : Bool) :
    (m.stop check).Truthful := by
  unfold HidQueueValueMonitor.stop
  split_ifs
  · exact h
  · exact h
  · rfl

/-- A job of the run loop keeps the current options truthful, as a start only begins to open the
device. -/
theorem Truthful.runJob {m : HidQueueValueMonitor} (h : m.Truthful) (job : RunLoopJob) :
    (m.runJob job).Truthful := by
  cases job with
  | startTimer => exact h
  | stop => exact h.stop true
  | start =>
      unfold HidQueueValueMonitor.runJob HidQueueValueMonitor.start
      dsimp only
      split
      · exact h
      · split_ifs
        · exact h
        · exact h.stop false

/-- A step keeps the current options true exactly when it commits what was decided. -/
theorem truthful_step_iff {m : HidQueueValueMonitor} (h : m.Truthful) (i : Input) :
    (HidQueueValueMonitor.step m i).Truthful ↔ m.CommitsDecided i := by
  cases i with
  | request openOptions => cases openOptions <;> exact iff_of_true h nofun
  | runLoop =>
      refine iff_of_true ?_ nofun
      unfold HidQueueValueMonitor.step
      dsimp only
      split
      · next job jobs _ _ =>
          have hjobs : Truthful { m with jobs } := h
          exact hjobs.runJob job
      · exact h
  | opened success =>
      unfold HidQueueValueMonitor.step
      cases hopening : m.opening with
      | none => exact iff_of_true h fun _ openOptions ho => by rw [hopening] at ho; cases ho
      | some openOptions =>
          cases success with
          | false => exact iff_of_true h nofun
          | true =>
              constructor
              · intro htruthful _ other hother
                obtain rfl := Option.some.inj (hopening.symm.trans hother)
                exact htruthful.symm
              · exact fun hcommits => (hcommits rfl openOptions hopening).symm
  | timerJob => exact iff_of_true h nofun
  | timerDue n => exact iff_of_true h nofun
  | deviceRemoved =>
      refine iff_of_true ?_ nofun
      unfold HidQueueValueMonitor.step
      dsimp only
      split
      · exact h.stop false
      · exact h

/-- **The current options are what the device is open with**, all along a run, exactly when every
opening ends with the request with which it has begun. -/
theorem truthful_iff (is : List Input) :
    (∀ before after, is = before ++ after → (run before).Truthful) ↔
      Machine.Steps HidQueueValueMonitor.step CommitsDecided {} is := by
  exact @Machine.steps_iff _ _ HidQueueValueMonitor.step CommitsDecided Truthful (fun _ => True)
    (fun _ _ _ _ => trivial) (fun _ i _ h => truthful_step_iff h i) {} trivial rfl is

/-- A request that is made while the device is being opened: it is open and seized, and it is said
to be neither. -/
theorem not_truthful_stopWhileOpening :
    let m := run [.request (some true), .runLoop, .timerJob, .timerJob, .runLoop, .request none,
      .opened true, .runLoop, .timerJob]
    m.openedWith = some true ∧ m.currentOpenOptions = none ∧ m.AtRest := by
  decide

/-! ### The signals -/

/-- The signals take turns, and the last says whether the device is open.  While it is being opened,
it is closed. -/
structure SignalsSound (m : HidQueueValueMonitor) : Prop where
  toggles : Toggles .started .stopped m.currentOpenOptions.isSome m.signals
  opening : m.opening ≠ none → m.currentOpenOptions = none

theorem SignalsSound.stop {m : HidQueueValueMonitor} (h : m.SignalsSound) (check : Bool) :
    (m.stop check).SignalsSound := by
  unfold HidQueueValueMonitor.stop
  split_ifs with hcurrent
  · exact h
  · exact h
  · have hopen : Toggles .started .stopped true m.signals :=
      Option.isSome_iff_ne_none.mpr hcurrent ▸ h.toggles
    exact ⟨hopen.off, fun _ => rfl⟩

/-- A job of the run loop signals only what it does. -/
theorem SignalsSound.runJob {m : HidQueueValueMonitor} (h : m.SignalsSound) (job : RunLoopJob) :
    (m.runJob job).SignalsSound := by
  cases job with
  | startTimer => exact ⟨h.toggles, h.opening⟩
  | stop => exact h.stop true
  | start =>
      unfold HidQueueValueMonitor.runJob HidQueueValueMonitor.start
      dsimp only
      split
      · exact ⟨h.toggles, h.opening⟩
      · split_ifs
        · exact ⟨h.toggles, h.opening⟩
        · have hclosed := currentOpenOptions_stop false m
          exact ⟨(h.stop false).toggles, fun _ => hclosed⟩

theorem SignalsSound.step {m : HidQueueValueMonitor} (h : m.SignalsSound) {i : Input}
    (hi : m.CommitsDecided i) : (HidQueueValueMonitor.step m i).SignalsSound := by
  cases i with
  | request openOptions => cases openOptions <;> exact ⟨h.toggles, h.opening⟩
  | runLoop =>
      unfold HidQueueValueMonitor.step
      dsimp only
      split
      · next job jobs _ _ =>
          have hjobs : SignalsSound { m with jobs } := ⟨h.toggles, h.opening⟩
          exact hjobs.runJob job
      · exact h
  | opened success =>
      unfold HidQueueValueMonitor.step
      cases hopening : m.opening with
      | none => exact h
      | some openOptions =>
          cases success with
          | false => exact ⟨h.toggles, fun hnone => absurd rfl hnone⟩
          | true =>
              have hclosed : m.currentOpenOptions = none := h.opening (by simp [hopening])
              have htoggles := h.toggles
              rw [hclosed] at htoggles
              -- The device has been closed, and it is open now, as the request still says so.
              refine ⟨?_, fun hnone => absurd rfl hnone⟩
              show Toggles .started .stopped m.requestedOpenOptions.isSome (m.signals ++ [.started])
              rw [hi rfl openOptions hopening]
              exact htoggles.on
  | timerJob => exact ⟨h.toggles, h.opening⟩
  | timerDue n => exact ⟨h.toggles, h.opening⟩
  | deviceRemoved =>
      unfold HidQueueValueMonitor.step
      dsimp only
      split
      · exact h.stop false
      · exact h

/-- **`started` and `stopped` take turns**, and the last of them says whether the device is open. -/
theorem signals_run {is : List Input}
    (his : Machine.Steps HidQueueValueMonitor.step CommitsDecided {} is) :
    Toggles .started .stopped (run is).openedWith.isSome (run is).signals := by
  have hinit : ({} : HidQueueValueMonitor).SignalsSound := ⟨.nil, fun _ => rfl⟩
  have hkeep : ∀ (m : HidQueueValueMonitor) i, m.CommitsDecided i → m.SignalsSound →
      (HidQueueValueMonitor.step m i).SignalsSound := fun _ _ hi h => h.step hi
  have hsound : (run is).SignalsSound := Machine.steps_invariant hkeep hinit his
  have hkeepTruthful : ∀ (m : HidQueueValueMonitor) i, m.CommitsDecided i → m.Truthful →
      (HidQueueValueMonitor.step m i).Truthful := fun _ i hi h => (truthful_step_iff h i).mpr hi
  have hclosed : ({} : HidQueueValueMonitor).Truthful := rfl
  have htruthful : (run is).Truthful := Machine.steps_invariant hkeepTruthful hclosed his
  rw [htruthful]
  exact hsound.toggles

/-- `signals_run` for a device that is seized. -/
theorem signals_run_seize :
    let is : List Input := [.request (some true), .runLoop, .timerJob, .timerJob, .runLoop,
      .opened true]
    (run is).openedWith = some true ∧
      Toggles .started .stopped (run is).openedWith.isSome (run is).signals :=
  ⟨by decide, signals_run ⟨nofun, nofun, nofun, nofun, nofun, fun _ _ h => h, trivial⟩⟩

end HidQueueValueMonitor

end Karabiner
