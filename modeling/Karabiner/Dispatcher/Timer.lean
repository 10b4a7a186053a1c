import Mathlib.Data.Int.Notation
import Mathlib.Data.Nat.Notation
import Mathlib.Tactic.SplitIfs

/-!
# The timer of the dispatcher

`vendor/include/pqrs/dispatcher/extra/timer.hpp`.  `start`, `stop` and `set_interval` set a flag at
once and leave the rest to jobs of the dispatcher.  A call of the function is a job of its own, so a
call that was under way when the timer was stopped still comes.

The dispatcher runs the jobs of a timer in their order, and a reserved call when it is due.  When
that is, and what other clients do in between, is left open.

* `Coherent` — once its jobs have run, the timer has a function exactly when it is enabled.
* `Coherent.runJob`, `Coherent.due` — the dispatcher keeps it, and so do the three methods.
-/

namespace Karabiner.Dispatcher

variable {φ : Type}

/-- The jobs that a timer puts into the queue of the dispatcher. -/
inductive TimerJob (φ : Type)
  | start (function : φ) (interval : ℤ)
  | stop
  | setInterval (interval : ℤ)
  | call (function : φ)
deriving DecidableEq, Repr

/-- `timer`, with its jobs and the function ids of its reserved calls. -/
structure Timer (φ : Type) where
  currentFunctionId : ℕ := 0
  function : Option φ := none
  interval : ℤ := 0
  enabled : Bool := false
  jobs : List (TimerJob φ) := []
  reserved : List ℕ := []
deriving DecidableEq, Repr

namespace Timer

/-! ### The methods -/

/-- `start`. -/
def start (function : φ) (interval : ℤ) (t : Timer φ) : Timer φ :=
  { t with enabled := true, jobs := t.jobs ++ [.start function interval] }

/-- `stop`. -/
def stop (t : Timer φ) : Timer φ :=
  { t with enabled := false, jobs := t.jobs ++ [.stop] }

/-- `set_interval`. -/
def setInterval (interval : ℤ) (t : Timer φ) : Timer φ :=
  if interval = 0 then t.stop
  else if interval ≠ t.interval then { t with jobs := t.jobs ++ [.setInterval interval] }
  else t

/-! ### The jobs -/

/-- `enqueue`. -/
def enqueue (functionId : ℕ) (t : Timer φ) : Timer φ :=
  { t with reserved := t.reserved ++ [functionId] }

/-- The call of the function that `call_function` enqueues. -/
def enqueueCall (t : Timer φ) : Timer φ :=
  match t.function with
  | some f => { t with jobs := t.jobs ++ [.call f] }
  | none => t

/-- `call_function`. -/
def callFunction (functionId : ℕ) (t : Timer φ) : Timer φ :=
  if t.currentFunctionId ≠ functionId then t else t.enqueueCall.enqueue functionId

/-- A job of the timer, and the function that it calls. -/
def run (t : Timer φ) : TimerJob φ → Timer φ × Option φ
  | .start f interval =>
    let functionId := t.currentFunctionId + 1
    let t := { t with currentFunctionId := functionId, function := some f, interval }
    (t.callFunction functionId, none)
  | .stop =>
    ({ t with currentFunctionId := t.currentFunctionId + 1, function := none, interval := 0 }, none)
  | .setInterval interval =>
    let functionId := t.currentFunctionId + 1
    ({ t with currentFunctionId := functionId, interval }.enqueue functionId, none)
  | .call f => (t, some f)

/-- The dispatcher runs the first job. -/
def runJob (t : Timer φ) : Timer φ × Option φ :=
  match t.jobs with
  | [] => (t, none)
  | job :: jobs => { t with jobs }.run job

/-- A reserved call is due. -/
def due (n : ℕ) (t : Timer φ) : Timer φ :=
  match t.reserved[n]? with
  | none => t
  | some functionId => { t with reserved := t.reserved.eraseIdx n }.callFunction functionId

/-! ### The function after the jobs -/

/-- The function after a job. -/
def functionAfter (function : Option φ) : TimerJob φ → Option φ
  | .start f _ => some f
  | .stop => none
  | .setInterval _ | .call _ => function

/-- The function once all jobs have run. -/
def settledFunction (t : Timer φ) : Option φ := t.jobs.foldl functionAfter t.function

/-- **The jobs catch up with the flag.** -/
def Coherent (t : Timer φ) : Prop := t.settledFunction.isSome = t.enabled

variable {t : Timer φ}

theorem coherent_start (function : φ) (interval : ℤ) (t : Timer φ) :
    (t.start function interval).Coherent := by
  simp [Coherent, settledFunction, start, functionAfter]

theorem coherent_stop (t : Timer φ) : t.stop.Coherent := by
  simp [Coherent, settledFunction, stop, functionAfter]

/-- What keeps the flag and the function after the jobs. -/
theorem Coherent.congr (h : t.Coherent) {t' : Timer φ} (henabled : t'.enabled = t.enabled)
    (hfunction : t'.settledFunction = t.settledFunction) : t'.Coherent := by
  rw [Coherent, henabled, hfunction]
  exact h

/-- An interval that is not 0 does not stop the timer. -/
theorem enabled_setInterval {interval : ℤ} (hinterval : interval ≠ 0) (t : Timer φ) :
    (t.setInterval interval).enabled = t.enabled := by
  unfold setInterval
  rw [if_neg hinterval]
  split_ifs <;> rfl

/-- A new interval starts the function anew. -/
theorem Coherent.setInterval (h : t.Coherent) {interval : ℤ} (hinterval : interval ≠ 0) :
    (t.setInterval interval).Coherent := by
  apply h.congr (enabled_setInterval hinterval t)
  unfold Timer.setInterval
  rw [if_neg hinterval]
  split_ifs
  · simp [settledFunction, functionAfter]
  · rfl

theorem enabled_callFunction (functionId : ℕ) (t : Timer φ) :
    (t.callFunction functionId).enabled = t.enabled := by
  unfold callFunction enqueueCall
  split_ifs
  · rfl
  · cases t.function <;> rfl

/-- A call changes no function. -/
theorem settledFunction_callFunction (functionId : ℕ) (t : Timer φ) :
    (t.callFunction functionId).settledFunction = t.settledFunction := by
  unfold callFunction enqueueCall enqueue
  split_ifs
  · rfl
  · cases hfunction : t.function <;> simp [settledFunction, functionAfter, hfunction]

theorem enabled_run (t : Timer φ) (job : TimerJob φ) : (t.run job).1.enabled = t.enabled := by
  cases job with
  | start f interval => exact enabled_callFunction _ _
  | stop => rfl
  | setInterval interval => rfl
  | call f => rfl

/-- **A job does what was expected of it.** -/
theorem settledFunction_run (t : Timer φ) (job : TimerJob φ) :
    (t.run job).1.settledFunction = t.jobs.foldl functionAfter (functionAfter t.function job) := by
  cases job with
  | start f interval => exact settledFunction_callFunction _ _
  | stop => rfl
  | setInterval interval => rfl
  | call f => rfl

theorem enabled_runJob (t : Timer φ) : t.runJob.1.enabled = t.enabled := by
  unfold runJob
  cases t.jobs with
  | nil => rfl
  | cons job jobs => exact enabled_run _ job

/-- A job brings the function closer to the settled one, which stays. -/
theorem Coherent.runJob (h : t.Coherent) : t.runJob.1.Coherent := by
  apply h.congr (enabled_runJob t)
  unfold Timer.runJob
  cases hjobs : t.jobs with
  | nil => rfl
  | cons job jobs =>
      show ({ t with jobs }.run job).1.settledFunction = t.settledFunction
      rw [settledFunction_run, settledFunction, hjobs, List.foldl_cons]

theorem enabled_due (n : ℕ) (t : Timer φ) : (t.due n).enabled = t.enabled := by
  unfold due
  cases t.reserved[n]? with
  | none => rfl
  | some functionId => exact enabled_callFunction functionId _

theorem Coherent.due (h : t.Coherent) (n : ℕ) : (t.due n).Coherent := by
  apply h.congr (enabled_due n t)
  unfold Timer.due
  cases t.reserved[n]? with
  | none => rfl
  | some functionId => exact settledFunction_callFunction functionId _

/-- A timer without jobs has a function exactly when it is enabled. -/
theorem Coherent.isSome_function (h : t.Coherent) (hjobs : t.jobs = []) :
    t.function.isSome = t.enabled := by
  rw [Coherent, settledFunction, hjobs] at h
  exact h

end Timer

end Karabiner.Dispatcher
