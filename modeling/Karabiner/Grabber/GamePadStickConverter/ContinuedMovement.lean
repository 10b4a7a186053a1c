import Karabiner.Grabber.GamePadStickConverter
import Mathlib.Data.Rat.Floor

/-!
# Continued movement

While a stick is tilted far enough, the timer of `GamePadStickConverter` posts motion for the stick
that owns the mode.  Every step keeps the timer enabled exactly while there is a mode
(`Consistent`), and moves the four event values only by calls of their two methods (`Drives`).

* `mode_updateStickSensorValue` — **continued movement stops** when both sticks are back.
* `outputs_ticks` — without a mode the timer posts nothing, whatever is still under way.
* `run_continuedMovement` — both, and no drift of the event values, for every order of steps.
-/

namespace Karabiner.GamePadStickConverter

open CoreConfiguration Dispatcher

variable {K : Type} [Field K] [StickArithmetic K]

/-! ### Event values and motions -/

/-- The event value of an axis. -/
def eventValue (c : GamePadStickConverter K) : Axis → EventValue K
  | .x => c.xValue
  | .y => c.yValue
  | .verticalWheel => c.verticalWheelValue
  | .horizontalWheel => c.horizontalWheelValue

/-- What the motions of some entries sum up to on an axis. -/
def moved (a : Axis) (entries : List Entry) : ℤ :=
  (entries.filterMap fun e =>
    e.event.getPointingMotion.map fun m => MakeEntries.component m a).sum

@[simp] theorem moved_nil (a : Axis) : moved a [] = 0 := rfl

theorem moved_append (a : Axis) (entries rest : List Entry) :
    moved a (entries ++ rest) = moved a entries + moved a rest := by
  unfold moved
  rw [List.filterMap_append, List.sum_append]

/-- A motion that is not posted is zero. -/
theorem moved_motionEntry (a : Axis) (now : AbsoluteTime) (m : PointingMotion)
    (c : GamePadStickConverter K) : moved a (c.motionEntry now m) = MakeEntries.component m a := by
  unfold motionEntry
  split_ifs with hzero
  · obtain ⟨hx, hy, hvertical, hhorizontal⟩ := hzero
    cases a with
    | x => exact hx.symm
    | y => exact hy.symm
    | verticalWheel => exact hvertical.symm
    | horizontalWheel => exact hhorizontal.symm
  · exact add_zero _

variable [LinearOrder K] [FloorRing K]

/-- **The event values are driven by calls**: those that lead from one converter to the other return
what the entries sum up to. -/
def Drives (c c' : GamePadStickConverter K) (entries : List Entry) : Prop :=
  ∀ a, ∃ calls : List (EventValue.Call K),
    c'.eventValue a = Machine.run EventValue.next (c.eventValue a) calls ∧
      moved a entries = (Machine.outputs EventValue.step (c.eventValue a) calls).sum

/-- What leaves the four values as they are drives them by no call. -/
theorem Drives.of_values {c c' : GamePadStickConverter K} (hx : c'.xValue = c.xValue)
    (hy : c'.yValue = c.yValue) (hvertical : c'.verticalWheelValue = c.verticalWheelValue)
    (hhorizontal : c'.horizontalWheelValue = c.horizontalWheelValue) : Drives c c' [] := by
  intro a
  refine ⟨[], ?_, rfl⟩
  cases a with
  | x => exact hx
  | y => exact hy
  | verticalWheel => exact hvertical
  | horizontalWheel => exact hhorizontal

theorem Drives.trans {c₁ c₂ c₃ : GamePadStickConverter K} {entries rest : List Entry}
    (h : Drives c₁ c₂ entries) (h' : Drives c₂ c₃ rest) : Drives c₁ c₃ (entries ++ rest) := by
  intro a
  obtain ⟨calls, hvalue, hmoved⟩ := h a
  obtain ⟨calls', hvalue', hmoved'⟩ := h' a
  refine ⟨calls ++ calls', ?_, ?_⟩
  · rw [Machine.run_append, ← hvalue, hvalue']
  · rw [moved_append, hmoved, hmoved', Machine.outputs_append, List.sum_append, hvalue]
    rfl

/-! ### Posting -/

section

variable (mode : ContinuedMovementMode) (now : AbsoluteTime) (c : GamePadStickConverter K)

@[simp] theorem xy_postEvent : (c.postEvent mode now).1.xy = c.xy := by
  cases mode <;> rfl

@[simp] theorem wheels_postEvent : (c.postEvent mode now).1.wheels = c.wheels := by
  cases mode <;> rfl

@[simp] theorem continuedMovementMode_postEvent :
    (c.postEvent mode now).1.continuedMovementMode = c.continuedMovementMode := by
  cases mode <;> rfl

@[simp] theorem continuedMovementTimer_postEvent :
    (c.postEvent mode now).1.continuedMovementTimer = c.continuedMovementTimer := by
  cases mode <;> rfl

/-- **A post sets every value** and takes those of its mode. -/
theorem drives_postEvent : Drives c (c.postEvent mode now).1 (c.postEvent mode now).2 := by
  let set := c.updateVariables.setValues
  intro a
  have hset : (set.eventValue a) = (c.eventValue a).setValue (set.eventValue a).value := by
    cases a <;> rfl
  cases mode with
  | none => exact ⟨[.setValue (set.eventValue a).value], hset, rfl⟩
  | xy =>
      have hmoved : moved a (c.postEvent .xy now).2 =
          MakeEntries.component
            ⟨set.xValue.truncatedValue.2, set.yValue.truncatedValue.2, 0, 0⟩ a :=
        moved_motionEntry a now _ set
      cases a with
      | x =>
          exact ⟨[.setValue set.xValue.value, .truncatedValue], rfl,
            hmoved.trans (add_zero _).symm⟩
      | y =>
          exact ⟨[.setValue set.yValue.value, .truncatedValue], rfl,
            hmoved.trans (add_zero _).symm⟩
      | verticalWheel => exact ⟨[.setValue set.verticalWheelValue.value], rfl, hmoved⟩
      | horizontalWheel => exact ⟨[.setValue set.horizontalWheelValue.value], rfl, hmoved⟩
  | wheels =>
      have hmoved : moved a (c.postEvent .wheels now).2 =
          MakeEntries.component ⟨0, 0, set.verticalWheelValue.truncatedValue.2,
            set.horizontalWheelValue.truncatedValue.2⟩ a :=
        moved_motionEntry a now _ set
      cases a with
      | x => exact ⟨[.setValue set.xValue.value], rfl, hmoved⟩
      | y => exact ⟨[.setValue set.yValue.value], rfl, hmoved⟩
      | verticalWheel =>
          exact ⟨[.setValue set.verticalWheelValue.value, .truncatedValue], rfl,
            hmoved.trans (add_zero _).symm⟩
      | horizontalWheel =>
          exact ⟨[.setValue set.horizontalWheelValue.value, .truncatedValue], rfl,
            hmoved.trans (add_zero _).symm⟩

end

/-! ### Updates -/

/-- Both sticks are outside the continued movement position. -/
def Neutral (c : GamePadStickConverter K) : Prop :=
  c.xy.continuedMovement = false ∧ c.wheels.continuedMovement = false

/-- **The timer is enabled exactly while there is a mode**, and its jobs catch up with that. -/
structure Consistent (c : GamePadStickConverter K) : Prop where
  enabled_iff : c.continuedMovementTimer.enabled = true ↔ c.continuedMovementMode ≠ .none
  coherent : c.continuedMovementTimer.Coherent

/-- **Inversion of `update_continued_movement_timer`**: it posts, stops the timer, starts it or does
nothing. -/
theorem updateContinuedMovementTimer_cases (mode : ContinuedMovementMode) (interval : ℤ)
    (now : AbsoluteTime) (c : GamePadStickConverter K) :
    (c.continuedMovementMode = .none ∧
      c.updateContinuedMovementTimer mode interval now = c.postEvent mode now) ∨
    (c.Neutral ∧ c.updateContinuedMovementTimer mode interval now =
      ({ c with
          continuedMovementMode := .none
          continuedMovementTimer := c.continuedMovementTimer.stop }, [])) ∨
    (∃ h : interval ≠ 0, c.updateContinuedMovementTimer mode interval now =
      ({ c with
          continuedMovementMode := mode
          continuedMovementTimerCount := 0
          continuedMovementTimer := c.continuedMovementTimer.start ⟨interval, h⟩ 300 }, [])) ∨
    (¬(interval = 0 ∧ c.Neutral) ∧ c.updateContinuedMovementTimer mode interval now = (c, [])) := by
  unfold updateContinuedMovementTimer
  by_cases hinterval : interval = 0
  · rw [dif_pos hinterval]
    by_cases hmode : c.continuedMovementMode = .none
    · exact .inl ⟨hmode, if_pos hmode⟩
    rw [if_neg hmode]
    by_cases hneutral : c.Neutral
    · refine .inr (.inl ⟨hneutral, if_pos ?_⟩)
      rw [hneutral.1, hneutral.2]
      rfl
    · refine .inr (.inr (.inr ⟨fun h => hneutral h.2, if_neg fun h => hneutral ?_⟩))
      simpa [Neutral] using h
  · rw [dif_neg hinterval]
    by_cases henabled : c.continuedMovementTimer.enabled
    · exact .inr (.inr (.inr ⟨fun h => hinterval h.1, if_neg (by simp [henabled])⟩))
    · exact .inr (.inr (.inl ⟨hinterval, if_pos (by simp [henabled])⟩))

section

variable (mode : ContinuedMovementMode) (interval : ℤ) (now : AbsoluteTime)
  (c : GamePadStickConverter K)

/-- The sticks stay as they were updated. -/
theorem neutral_updateContinuedMovementTimer :
    (c.updateContinuedMovementTimer mode interval now).1.Neutral ↔ c.Neutral := by
  rcases updateContinuedMovementTimer_cases mode interval now c with
    ⟨-, h⟩ | ⟨-, h⟩ | ⟨_, h⟩ | ⟨-, h⟩ <;> rw [h]
  · simp [Neutral]
  · rfl
  · rfl

/-- Starting the timer posts through the values, and stopping it posts nothing. -/
theorem drives_updateContinuedMovementTimer :
    Drives c (c.updateContinuedMovementTimer mode interval now).1
      (c.updateContinuedMovementTimer mode interval now).2 := by
  rcases updateContinuedMovementTimer_cases mode interval now c with
    ⟨-, h⟩ | ⟨-, h⟩ | ⟨_, h⟩ | ⟨-, h⟩ <;> rw [h]
  · exact drives_postEvent mode now c
  all_goals exact .of_values rfl rfl rfl rfl

/-- With a mode the timer is started. -/
theorem Consistent.updateContinuedMovementTimer {mode : ContinuedMovementMode}
    {c : GamePadStickConverter K} (h : c.Consistent) (hmode : mode ≠ .none) :
    (c.updateContinuedMovementTimer mode interval now).1.Consistent := by
  rcases updateContinuedMovementTimer_cases mode interval now c with
    ⟨-, hstep⟩ | ⟨-, hstep⟩ | ⟨hinterval, hstep⟩ | ⟨-, hstep⟩ <;> rw [hstep]
  · exact ⟨by simpa using h.enabled_iff, by simpa using h.coherent⟩
  · exact ⟨by simp [Timer.stop], Timer.coherent_stop _⟩
  · exact ⟨by simp [Timer.start, hmode], Timer.coherent_start _ _ _⟩
  · exact h

/-- **The mode is given up** when a stick without an interval finds both outside. -/
theorem mode_updateContinuedMovementTimer (hneutral : c.Neutral) :
    (c.updateContinuedMovementTimer mode 0 now).1.continuedMovementMode = .none := by
  rcases updateContinuedMovementTimer_cases mode 0 now c with
    ⟨hmode, h⟩ | ⟨-, h⟩ | ⟨hinterval, -⟩ | ⟨hne, -⟩
  · rw [h, continuedMovementMode_postEvent, hmode]
  · rw [h]
  · exact absurd rfl hinterval
  · exact absurd ⟨rfl, hneutral⟩ hne

end

/-- A sensor is updated by a call of `update_continued_movement_timer` for its stick. -/
theorem updateStickSensorValue_eq (axis : Axis) (logicalMax logicalMin integerValue : ℤ)
    (now : AbsoluteTime) (c : GamePadStickConverter K) :
    let c' := c.updateStick axis logicalMax logicalMin integerValue
    ∃ mode interval, mode ≠ ContinuedMovementMode.none ∧ (c'.Neutral → interval = 0) ∧
      c.updateStickSensorValue axis logicalMax logicalMin integerValue now =
        c'.updateContinuedMovementTimer mode interval now := by
  intro c'
  have hxy : c'.Neutral → c'.xy.getContinuedMovementIntervalMilliseconds = 0 := by
    intro h
    rw [Stick.getContinuedMovementIntervalMilliseconds, h.1]
    rfl
  have hwheels : c'.Neutral → c'.wheels.getContinuedMovementIntervalMilliseconds = 0 := by
    intro h
    rw [Stick.getContinuedMovementIntervalMilliseconds, h.2]
    rfl
  cases axis with
  | x => exact ⟨.xy, _, by simp, hxy, rfl⟩
  | y => exact ⟨.xy, _, by simp, hxy, rfl⟩
  | verticalWheel => exact ⟨.wheels, _, by simp, hwheels, rfl⟩
  | horizontalWheel => exact ⟨.wheels, _, by simp, hwheels, rfl⟩

/-! ### Ticks -/

/-- What every tick keeps, and that it posts nothing without a mode. -/
structure Ticks (c c' : GamePadStickConverter K) (entries : List Entry) : Prop where
  mode : c'.continuedMovementMode = c.continuedMovementMode
  enabled : c'.continuedMovementTimer.enabled = c.continuedMovementTimer.enabled
  coherent : c.continuedMovementTimer.Coherent → c'.continuedMovementTimer.Coherent
  drives : Drives c c' entries
  silent : c.continuedMovementMode = .none → entries = []

/-- A tick keeps the timer enabled exactly while there is a mode. -/
theorem Ticks.consistent {c c' : GamePadStickConverter K} {entries : List Entry}
    (h : Ticks c c' entries) (hc : c.Consistent) : c'.Consistent :=
  ⟨by rw [h.enabled, h.mode]; exact hc.enabled_iff, h.coherent hc.coherent⟩

/-- What happens between two calls of the function changes the timer alone. -/
theorem ticks_timer {c : GamePadStickConverter K} {timer : Timer TimerFunction}
    (henabled : timer.enabled = c.continuedMovementTimer.enabled)
    (hcoherent : c.continuedMovementTimer.Coherent → timer.Coherent) :
    Ticks c { c with continuedMovementTimer := timer } [] where
  mode := rfl
  enabled := henabled
  coherent := hcoherent
  drives := .of_values rfl rfl rfl rfl
  silent _ := rfl

/-- A post for the mode. -/
theorem ticks_postEvent (now : AbsoluteTime) (c : GamePadStickConverter K) :
    Ticks c (c.postEvent c.continuedMovementMode now).1
      (c.postEvent c.continuedMovementMode now).2 where
  mode := continuedMovementMode_postEvent _ now c
  enabled := by rw [continuedMovementTimer_postEvent]
  coherent := by rw [continuedMovementTimer_postEvent]; exact id
  drives := drives_postEvent _ now c
  silent hmode := by rw [hmode]; rfl

theorem Ticks.trans {c₁ c₂ c₃ : GamePadStickConverter K} {entries rest : List Entry}
    (h : Ticks c₁ c₂ entries) (h' : Ticks c₂ c₃ rest) : Ticks c₁ c₃ (entries ++ rest) where
  mode := h'.mode.trans h.mode
  enabled := h'.enabled.trans h.enabled
  coherent := h'.coherent ∘ h.coherent
  drives := h.drives.trans h'.drives
  silent hmode := by rw [h.silent hmode, h'.silent (h.mode.trans hmode)]; rfl

/-- **A call of the function** is ignored or posts for the mode; the second one changes the
interval. -/
theorem ticks_timerFunction (f : TimerFunction) (now : AbsoluteTime)
    (c : GamePadStickConverter K) :
    Ticks c (c.timerFunction f now).1 (c.timerFunction f now).2 := by
  let counted : GamePadStickConverter K :=
    { c with continuedMovementTimerCount := c.continuedMovementTimerCount + 1 }
  have hcounted : Ticks c counted [] :=
    ⟨rfl, rfl, id, .of_values rfl rfl rfl rfl, fun _ => rfl⟩
  have hpost : Ticks c (counted.postEvent c.continuedMovementMode now).1
      (counted.postEvent c.continuedMovementMode now).2 :=
    hcounted.trans (ticks_postEvent now counted)
  unfold timerFunction
  dsimp only
  split_ifs
  · exact hcounted
  · have hinterval := ticks_timer (c := (counted.postEvent c.continuedMovementMode now).1)
      (Timer.enabled_setInterval f.interval_ne_zero _) fun h => h.setInterval f.interval_ne_zero
    simpa using hpost.trans hinterval
  · exact hpost

/-- **What the dispatcher does for the timer is a tick.** -/
theorem ticks_step {i : Input} (hi : i.IsTick) (c : GamePadStickConverter K) :
    Ticks c (c.step i).1 (c.step i).2 := by
  cases i with
  | updateStickSensorValue => exact hi.elim
  | due n => exact ticks_timer (Timer.enabled_due n _) fun h => h.due n
  | runJob now =>
      have hjob := ticks_timer (c := c) (Timer.enabled_runJob c.continuedMovementTimer)
        fun h => h.runJob
      unfold step
      dsimp only
      cases c.continuedMovementTimer.runJob.2 with
      | none => exact hjob
      | some f => exact hjob.trans (ticks_timerFunction f now _)

/-! ### Runs -/

/-- After every step the timer is enabled exactly while there is a mode. -/
theorem Consistent.next {c : GamePadStickConverter K} (h : c.Consistent) (i : Input) :
    (c.next i).Consistent := by
  by_cases hi : i.IsTick
  · exact (ticks_step hi c).consistent h
  cases i with
  | runJob => exact absurd trivial hi
  | due => exact absurd trivial hi
  | updateStickSensorValue axis logicalMax logicalMin integerValue now =>
      obtain ⟨mode, interval, hmode, -, hstep⟩ :=
        updateStickSensorValue_eq axis logicalMax logicalMin integerValue now c
      have hc : (c.updateStick axis logicalMax logicalMin integerValue).Consistent := by
        cases axis <;> exact ⟨h.enabled_iff, h.coherent⟩
      show (c.updateStickSensorValue axis logicalMax logicalMin integerValue now).1.Consistent
      rw [hstep]
      exact hc.updateContinuedMovementTimer interval now hmode

/-- Every step posts only through the event values. -/
theorem drives_step (c : GamePadStickConverter K) (i : Input) :
    Drives c (c.step i).1 (c.step i).2 := by
  by_cases hi : i.IsTick
  · exact (ticks_step hi c).drives
  cases i with
  | runJob => exact absurd trivial hi
  | due => exact absurd trivial hi
  | updateStickSensorValue axis logicalMax logicalMin integerValue now =>
      obtain ⟨mode, interval, -, -, hstep⟩ :=
        updateStickSensorValue_eq axis logicalMax logicalMin integerValue now c
      have hc : Drives c (c.updateStick axis logicalMax logicalMin integerValue) [] := by
        cases axis <;> exact .of_values rfl rfl rfl rfl
      show Drives c (c.updateStickSensorValue axis logicalMax logicalMin integerValue now).1
        (c.updateStickSensorValue axis logicalMax logicalMin integerValue now).2
      rw [hstep]
      exact hc.trans (drives_updateContinuedMovementTimer mode interval now _)

theorem drives_run (c : GamePadStickConverter K) (inputs : List Input) :
    Drives c (Machine.run GamePadStickConverter.next c inputs) (Machine.outputs step c inputs) := by
  induction inputs generalizing c with
  | nil => exact .of_values rfl rfl rfl rfl
  | cons i inputs ih => exact (drives_step c i).trans (ih (c.next i))

/-- **Continued movement stops** with an update that leaves both sticks outside. -/
theorem mode_updateStickSensorValue {axis : Axis} {logicalMax logicalMin integerValue : ℤ}
    {now : AbsoluteTime} {c : GamePadStickConverter K}
    (hneutral : (c.updateStickSensorValue axis logicalMax logicalMin integerValue now).1.Neutral) :
    (c.updateStickSensorValue axis logicalMax logicalMin integerValue now).1.continuedMovementMode =
      .none := by
  obtain ⟨mode, interval, -, hinterval, hstep⟩ :=
    updateStickSensorValue_eq axis logicalMax logicalMin integerValue now c
  rw [hstep] at hneutral ⊢
  have hc := (neutral_updateContinuedMovementTimer mode interval now _).mp hneutral
  obtain rfl := hinterval hc
  exact mode_updateContinuedMovementTimer mode now _ hc

/-- **Without a mode, ticks post nothing**, and there is no mode after them either. -/
theorem outputs_ticks {c : GamePadStickConverter K} (hmode : c.continuedMovementMode = .none)
    {ticks : List Input} (hticks : ∀ i ∈ ticks, i.IsTick) :
    Machine.outputs step c ticks = [] ∧
      (Machine.run GamePadStickConverter.next c ticks).continuedMovementMode = .none := by
  induction ticks generalizing c with
  | nil => exact ⟨rfl, hmode⟩
  | cons i ticks ih =>
      obtain ⟨hi, hticks⟩ := List.forall_mem_cons.mp hticks
      have htick := ticks_step hi c
      obtain ⟨houtputs, hrun⟩ := ih (htick.mode.trans hmode) hticks
      refine ⟨?_, hrun⟩
      rw [Machine.outputs_cons, htick.silent hmode, houtputs]
      rfl

/-- In every state reached the timer is enabled exactly while there is a mode. -/
theorem consistent_after (deviceProperties : DeviceProperties) (d : Device)
    (inputs : List Input) : (after (K := K) deviceProperties d inputs).Consistent :=
  Machine.run_invariant (fun _ i h => h.next i) ⟨by simp [make, setCoreConfiguration], rfl⟩ inputs

/-- **Game pad continued movement stops and does not drift.**  After any steps the timer is enabled
exactly while there is a mode, and has a function exactly then once its jobs have run.  An update
that leaves both sticks outside gives up the mode, and no tick posts anything before the next
update.  Each event value has seen calls of its two methods alone, which return what is posted; over
any calls the remainder stays below one unit, the returned values are bounded, and nothing is lost
while none of them is clamped. -/
theorem run_continuedMovement [IsStrictOrderedRing K] (deviceProperties : DeviceProperties)
    (d : Device) (inputs : List Input) :
    let c : GamePadStickConverter K := after deviceProperties d inputs
    ((c.continuedMovementTimer.enabled = true ↔ c.continuedMovementMode ≠ .none) ∧
      (c.continuedMovementTimer.jobs = [] →
        (c.continuedMovementTimer.function.isSome = true ↔ c.continuedMovementMode ≠ .none))) ∧
    (∀ axis logicalMax logicalMin integerValue now,
      let c' := c.next (.updateStickSensorValue axis logicalMax logicalMin integerValue now)
      c'.Neutral →
        c'.continuedMovementMode = .none ∧ c'.continuedMovementTimer.enabled = false ∧
          ∀ ticks : List Input, (∀ i ∈ ticks, i.IsTick) → Machine.outputs step c' ticks = []) ∧
    (∀ a, ∃ calls : List (EventValue.Call K),
      c.eventValue a = Machine.run EventValue.next {} calls ∧
        moved a (Machine.outputs step (make (K := K) deviceProperties d) inputs) =
          (Machine.outputs EventValue.step ({} : EventValue K) calls).sum) ∧
    (∀ calls : List (EventValue.Call K),
      |(Machine.run EventValue.next ({} : EventValue K) calls).remainder| < 1 ∧
        (∀ v ∈ Machine.outputs EventValue.step ({} : EventValue K) calls, -127 ≤ v ∧ v ≤ 127) ∧
        (Machine.Steps EventValue.next EventValue.Unclamped ({} : EventValue K) calls →
          ((Machine.outputs EventValue.step ({} : EventValue K) calls).map
              (Int.cast : ℤ → K)).sum +
            (Machine.run EventValue.next {} calls).remainder =
          Machine.received EventValue.next EventValue.taken {} calls)) := by
  intro c
  have hconsistent : c.Consistent := consistent_after deviceProperties d inputs
  refine ⟨⟨hconsistent.enabled_iff, fun hjobs => ?_⟩, ?_, ?_, ?_⟩
  · rw [hconsistent.coherent.isSome_function hjobs]
    exact hconsistent.enabled_iff
  · intro axis logicalMax logicalMin integerValue now c' hneutral
    have hmode : c'.continuedMovementMode = .none := mode_updateStickSensorValue hneutral
    have henabled := (hconsistent.next
      (.updateStickSensorValue axis logicalMax logicalMin integerValue now)).enabled_iff
    refine ⟨hmode, ?_, fun ticks hticks => (outputs_ticks hmode hticks).1⟩
    rw [← Bool.not_eq_true, henabled]
    exact not_not_intro hmode
  · intro a
    obtain ⟨calls, hvalue, hmoved⟩ := drives_run (make (K := K) deviceProperties d) inputs a
    have hinitial : (make (K := K) deviceProperties d).eventValue a = {} := by
      cases a <;> rfl
    rw [hinitial] at hvalue hmoved
    exact ⟨calls, hvalue, hmoved⟩
  · intro calls
    exact ⟨EventValue.abs_remainder_run calls, EventValue.outputs_bounds {} calls,
      EventValue.run_conserves⟩

/-- A stick is tilted until the timer has fired twice, and comes back. -/
theorem run_continuedMovement_tilted :
    letI := StickArithmetic.singleVariable
    let d : Device := {
      members := []
      identifiers := {}
      values := HelperValues.make.setValue .gamePadStickXFormula "absolute_magnitude"
      simpleModifications := {}
      fnFunctionKeys := {} }
    let tilted : GamePadStickConverter ℚ := after { deviceId := 1 } d
      [.updateStickSensorValue .x 1 (-1) 1 0, .runJob 0, .runJob 0, .due 0, .runJob 300]
    let released := tilted.next (.updateStickSensorValue .x 1 (-1) 0 310)
    tilted.continuedMovementMode = .xy ∧ released.continuedMovementMode = .none ∧
      Machine.outputs step released [.runJob 310, .due 0, .runJob 320] = [] := by
  intro d tilted released
  let := StickArithmetic.singleVariable
  have hreleased := (run_continuedMovement (K := ℚ) { deviceId := 1 } d
    [.updateStickSensorValue .x 1 (-1) 1 0, .runJob 0, .runJob 0, .due 0, .runJob 300]).2.1
      .x 1 (-1) 0 310 ⟨by decide +kernel, by decide +kernel⟩
  exact ⟨by decide +kernel, hreleased.1, hreleased.2.2 _ (by simp [Input.IsTick])⟩

end Karabiner.GamePadStickConverter
