import Karabiner.CoreConfiguration.Device
import Karabiner.Dispatcher.Timer
import Karabiner.EventQueue.Utility.Conservation
import Karabiner.Grabber.GamePadStickConverter.EventValue

/-!
# The game pad stick converter

`core/grabber/device_grabber_details/game_pad_stick_converter.hpp`.  A stick of a game pad only
sends its changes.  While it is tilted far enough, a timer goes on posting motion for it: the stick
that started the timer owns the mode, and either stick keeps the timer alive.

A `double` is an element of an ordered field, and computing with it is exact.  Square roots, angles
and the formulas of `exprtk` are parameters (`StickArithmetic`) of which nothing is assumed.

* `updateContinuedMovementTimer` — what an update of a stick does to mode and timer.
* `step` — an update of a stick, or what the dispatcher does for the timer, with the posted entries.
-/

namespace Karabiner

open CoreConfiguration Dispatcher

/-- `std::sqrt`, `std::atan2` and the expressions of `exprtk`, whose value may change their
variables and may be no number. -/
class StickArithmetic (K : Type) where
  sqrt : K → K
  atan2 : K → K → K
  Expression : Type
  compile : String → Expression
  setVariable : String → K → Expression → Expression
  value : Expression → Expression × Option K

/-- Formulas that are the name of one variable, and the square roots of 0 and 1. -/
@[reducible] def StickArithmetic.singleVariable : StickArithmetic ℚ where
  sqrt x := x
  atan2 _ _ := 0
  Expression := String × List (String × ℚ)
  compile expressionString := (expressionString, [])
  setVariable name value e := (e.1, (name, value) :: e.2)
  value e := (e, some ((e.2.lookup e.1).getD 0))

namespace GamePadStickConverter

variable {K : Type} [Field K] [LinearOrder K]

/-! ### Sticks -/

/-- `stick_sensor`, its value after `update_stick_sensor_value`. -/
def stickSensorValue (logicalMax logicalMin integerValue : ℤ) : K :=
  if logicalMax ≠ logicalMin then
    -- -1.0 ... 1.0
    (((integerValue - logicalMin : ℤ) : K) / ((logicalMax - logicalMin : ℤ) : K) - 1 / 2) * 2
  else 0

/-- `stick`. -/
structure Stick (K : Type) [Field K] where
  horizontalStickSensor : K := 0
  verticalStickSensor : K := 0
  radian : K := 0
  absoluteMagnitude : K := 0
  deltaMagnitude : K := 0
  previousAbsoluteMagnitude : K := 0
  -- configurations
  deadzone : K := 0
  deltaMagnitudeDetectionThreshold : K := 0
  continuedMovementAbsoluteMagnitudeThreshold : K := 1
  continuedMovementIntervalMilliseconds : ℤ := 0

namespace Stick

/-- `continued_movement`. -/
def continuedMovement (s : Stick K) : Bool :=
  s.absoluteMagnitude ≥ s.continuedMovementAbsoluteMagnitudeThreshold

/-- `get_continued_movement_interval_milliseconds`. -/
def getContinuedMovementIntervalMilliseconds (s : Stick K) : ℤ :=
  if s.continuedMovement then s.continuedMovementIntervalMilliseconds else 0

/-- The part of `update_values` that updates `delta_magnitude_`. -/
def updateDeltaMagnitude (s : Stick K) : Stick K :=
  let dm := max 0 (s.absoluteMagnitude - s.previousAbsoluteMagnitude)
  if s.continuedMovement then
    { s with deltaMagnitude := dm, previousAbsoluteMagnitude := s.absoluteMagnitude }
  -- Ignore minor magnitude changes until a sufficient amount of change accumulates.
  else if 0 < dm ∧ dm < s.deltaMagnitudeDetectionThreshold then { s with deltaMagnitude := 0 }
  else { s with deltaMagnitude := dm, previousAbsoluteMagnitude := s.absoluteMagnitude }

/-- The variables of the formulas of a stick.  While the stick owns the mode and keeps the timer
alive, the magnitude of the other stick is added. -/
def formulaVariables (stick other : Stick K) (owns : Bool) : List (String × K) :=
  let (deltaMagnitude, absoluteMagnitude) :=
    if owns && stick.continuedMovement then
      (stick.deltaMagnitude + other.absoluteMagnitude,
        stick.absoluteMagnitude + other.absoluteMagnitude)
    else (stick.deltaMagnitude, stick.absoluteMagnitude)
  [("radian", stick.radian), ("delta_magnitude", deltaMagnitude),
    ("absolute_magnitude", absoluteMagnitude), ("continued_movement", if owns then 1 else 0)]

variable [StickArithmetic K]

/-- `update_values`, up to its signal. -/
def updateValues (s : Stick K) : Stick K :=
  let s := { s with
    radian := StickArithmetic.atan2 s.verticalStickSensor s.horizontalStickSensor
    absoluteMagnitude :=
      min 1 (StickArithmetic.sqrt (s.verticalStickSensor ^ 2 + s.horizontalStickSensor ^ 2)) }
  let s := s.updateDeltaMagnitude
  if s.absoluteMagnitude ≤ s.deadzone then { s with deltaMagnitude := 0, absoluteMagnitude := 0 }
  else s

/-- `update_horizontal_stick_sensor_value`, up to the signal. -/
def updateHorizontalStickSensorValue (logicalMax logicalMin integerValue : ℤ) (s : Stick K) :
    Stick K :=
  { s with
    horizontalStickSensor := stickSensorValue logicalMax logicalMin integerValue }.updateValues

/-- `update_vertical_stick_sensor_value`, up to the signal. -/
def updateVerticalStickSensorValue (logicalMax logicalMin integerValue : ℤ) (s : Stick K) :
    Stick K :=
  { s with
    verticalStickSensor := stickSensorValue logicalMax logicalMin integerValue }.updateValues

end Stick

/-! ### The converter -/

/-- `continued_movement_mode`. -/
inductive ContinuedMovementMode
  | none
  | xy
  | wheels
deriving DecidableEq, Repr

/-- The function of the timer, with the interval that it captures. -/
structure TimerFunction where
  interval : ℤ
  interval_ne_zero : interval ≠ 0
deriving DecidableEq, Repr

end GamePadStickConverter

open GamePadStickConverter

/-- `game_pad_stick_converter`. -/
structure GamePadStickConverter (K : Type) [Field K] [StickArithmetic K] where
  deviceProperties : DeviceProperties
  xy : Stick K := {}
  wheels : Stick K := {}
  xValue : EventValue K := {}
  yValue : EventValue K := {}
  horizontalWheelValue : EventValue K := {}
  verticalWheelValue : EventValue K := {}
  continuedMovementTimer : Timer TimerFunction := {}
  continuedMovementTimerCount : ℤ := 0
  continuedMovementMode : ContinuedMovementMode := .none
  xFormula : StickArithmetic.Expression K := StickArithmetic.compile ""
  yFormula : StickArithmetic.Expression K := StickArithmetic.compile ""
  verticalWheelFormula : StickArithmetic.Expression K := StickArithmetic.compile ""
  horizontalWheelFormula : StickArithmetic.Expression K := StickArithmetic.compile ""

namespace GamePadStickConverter

variable {K : Type} [Field K] [StickArithmetic K]

/-- `set_core_configuration`, with the settings of the device. -/
def setCoreConfiguration (d : Device) (c : GamePadStickConverter K) : GamePadStickConverter K :=
  { c with
    xy := { c.xy with
      deadzone := ((d.values .gamePadXyStickDeadzone).value : ℚ)
      deltaMagnitudeDetectionThreshold :=
        ((d.values .gamePadXyStickDeltaMagnitudeDetectionThreshold).value : ℚ)
      continuedMovementAbsoluteMagnitudeThreshold :=
        ((d.values .gamePadXyStickContinuedMovementAbsoluteMagnitudeThreshold).value : ℚ)
      continuedMovementIntervalMilliseconds :=
        (d.values .gamePadXyStickContinuedMovementIntervalMilliseconds).value.toInt }
    wheels := { c.wheels with
      deadzone := ((d.values .gamePadWheelsStickDeadzone).value : ℚ)
      deltaMagnitudeDetectionThreshold :=
        ((d.values .gamePadWheelsStickDeltaMagnitudeDetectionThreshold).value : ℚ)
      continuedMovementAbsoluteMagnitudeThreshold :=
        ((d.values .gamePadWheelsStickContinuedMovementAbsoluteMagnitudeThreshold).value : ℚ)
      continuedMovementIntervalMilliseconds :=
        (d.values .gamePadWheelsStickContinuedMovementIntervalMilliseconds).value.toInt }
    xFormula := StickArithmetic.compile (d.values .gamePadStickXFormula).value
    yFormula := StickArithmetic.compile (d.values .gamePadStickYFormula).value
    verticalWheelFormula :=
      StickArithmetic.compile (d.values .gamePadStickVerticalWheelFormula).value
    horizontalWheelFormula :=
      StickArithmetic.compile (d.values .gamePadStickHorizontalWheelFormula).value }

/-- The constructor, with the settings of the device. -/
def make (deviceProperties : DeviceProperties) (d : Device) : GamePadStickConverter K :=
  { deviceProperties : GamePadStickConverter K }.setCoreConfiguration d

/-! ### Posting -/

/-- The calls of `set_variable` for one formula. -/
def setVariables (values : List (String × K)) (f : StickArithmetic.Expression K) :
    StickArithmetic.Expression K :=
  values.foldl (fun f p => StickArithmetic.setVariable p.1 p.2 f) f

/-- The value of a formula; what is no number counts as 0. -/
def formulaValue (f : StickArithmetic.Expression K) : K := (StickArithmetic.value f).2.getD 0

/-- `xy_hid_values` and `wheels_hid_values`, set as the four values. -/
def setValues (c : GamePadStickConverter K) : GamePadStickConverter K :=
  { c with
    xValue := c.xValue.setValue (formulaValue c.xFormula)
    yValue := c.yValue.setValue (formulaValue c.yFormula)
    horizontalWheelValue := c.horizontalWheelValue.setValue (formulaValue c.horizontalWheelFormula)
    verticalWheelValue := c.verticalWheelValue.setValue (-formulaValue c.verticalWheelFormula)
    xFormula := (StickArithmetic.value c.xFormula).1
    yFormula := (StickArithmetic.value c.yFormula).1
    horizontalWheelFormula := (StickArithmetic.value c.horizontalWheelFormula).1
    verticalWheelFormula := (StickArithmetic.value c.verticalWheelFormula).1 }

/-- The entry of a motion, unless the motion is zero. -/
def motionEntry (now : AbsoluteTime) (m : PointingMotion) (c : GamePadStickConverter K) :
    List Entry :=
  if m.x = 0 ∧ m.y = 0 ∧ m.verticalWheel = 0 ∧ m.horizontalWheel = 0 then []
  else [{
    deviceId := c.deviceProperties.deviceId
    eventTimeStamp := { timeStamp := now }
    event := .pointingMotion m
    eventType := .single
    originalEvent := .pointingMotion m
    state := .original }]

variable [LinearOrder K]

/-- The part of `post_event` that updates the variables. -/
def updateVariables (c : GamePadStickConverter K) : GamePadStickConverter K :=
  let xy := c.xy.formulaVariables c.wheels (c.continuedMovementMode = .xy)
  let wheels := c.wheels.formulaVariables c.xy (c.continuedMovementMode = .wheels)
  { c with
    xFormula := setVariables xy c.xFormula
    yFormula := setVariables xy c.yFormula
    verticalWheelFormula := setVariables wheels c.verticalWheelFormula
    horizontalWheelFormula := setVariables wheels c.horizontalWheelFormula }

/-- The sticks after the sensor of an axis has been updated, before the signal. -/
def updateStick (axis : Axis) (logicalMax logicalMin integerValue : ℤ)
    (c : GamePadStickConverter K) : GamePadStickConverter K :=
  match axis with
  | .x => { c with
      xy := c.xy.updateHorizontalStickSensorValue logicalMax logicalMin integerValue }
  | .y => { c with
      xy := c.xy.updateVerticalStickSensorValue logicalMax logicalMin integerValue }
  | .verticalWheel => { c with
      wheels := c.wheels.updateVerticalStickSensorValue logicalMax logicalMin integerValue }
  | .horizontalWheel => { c with
      wheels := c.wheels.updateHorizontalStickSensorValue logicalMax logicalMin integerValue }

variable [FloorRing K]

/-- `post_xy_event`. -/
def postXyEvent (now : AbsoluteTime) (c : GamePadStickConverter K) :
    GamePadStickConverter K × List Entry :=
  let x := c.xValue.truncatedValue
  let y := c.yValue.truncatedValue
  ({ c with xValue := x.1, yValue := y.1 }, c.motionEntry now ⟨x.2, y.2, 0, 0⟩)

/-- `post_wheels_event`. -/
def postWheelsEvent (now : AbsoluteTime) (c : GamePadStickConverter K) :
    GamePadStickConverter K × List Entry :=
  let vertical := c.verticalWheelValue.truncatedValue
  let horizontal := c.horizontalWheelValue.truncatedValue
  ({ c with verticalWheelValue := vertical.1, horizontalWheelValue := horizontal.1 },
    c.motionEntry now ⟨0, 0, vertical.2, horizontal.2⟩)

/-- `post_event`. -/
def postEvent (mode : ContinuedMovementMode) (now : AbsoluteTime) (c : GamePadStickConverter K) :
    GamePadStickConverter K × List Entry :=
  let c := c.updateVariables.setValues
  match mode with
  | .none => (c, [])
  | .xy => c.postXyEvent now
  | .wheels => c.postWheelsEvent now

/-! ### The timer -/

/-- `update_continued_movement_timer`. -/
def updateContinuedMovementTimer (mode : ContinuedMovementMode) (interval : ℤ)
    (now : AbsoluteTime) (c : GamePadStickConverter K) : GamePadStickConverter K × List Entry :=
  if h : interval = 0 then
    if c.continuedMovementMode = .none then c.postEvent mode now
    else if !c.xy.continuedMovement && !c.wheels.continuedMovement then
      ({ c with
          continuedMovementMode := .none
          continuedMovementTimer := c.continuedMovementTimer.stop }, [])
    else (c, [])
  else if !c.continuedMovementTimer.enabled then
    ({ c with
        continuedMovementMode := mode
        continuedMovementTimerCount := 0
        continuedMovementTimer := c.continuedMovementTimer.start ⟨interval, h⟩ 300 }, [])
  else (c, [])

/-- The function of the timer. -/
def timerFunction (f : TimerFunction) (now : AbsoluteTime) (c : GamePadStickConverter K) :
    GamePadStickConverter K × List Entry :=
  let c := { c with continuedMovementTimerCount := c.continuedMovementTimerCount + 1 }
  -- Ignore immediately fire after start.
  if c.continuedMovementTimerCount = 1 then (c, [])
  else if c.continuedMovementTimerCount = 2 then
    let (c, entries) := c.postEvent c.continuedMovementMode now
    ({ c with
        continuedMovementTimer := c.continuedMovementTimer.setInterval f.interval }, entries)
  else c.postEvent c.continuedMovementMode now

/-! ### Updates of the sticks -/

/-- The slot of `xy_.values_updated`. -/
def xyValuesUpdated (now : AbsoluteTime) (c : GamePadStickConverter K) :
    GamePadStickConverter K × List Entry :=
  c.updateContinuedMovementTimer .xy c.xy.getContinuedMovementIntervalMilliseconds now

/-- The slot of `wheels_.values_updated`. -/
def wheelsValuesUpdated (now : AbsoluteTime) (c : GamePadStickConverter K) :
    GamePadStickConverter K × List Entry :=
  c.updateContinuedMovementTimer .wheels c.wheels.getContinuedMovementIntervalMilliseconds now

/-- The sensor of an axis is updated. -/
def updateStickSensorValue (axis : Axis) (logicalMax logicalMin integerValue : ℤ)
    (now : AbsoluteTime) (c : GamePadStickConverter K) : GamePadStickConverter K × List Entry :=
  let c := c.updateStick axis logicalMax logicalMin integerValue
  match axis with
  | .x | .y => c.xyValuesUpdated now
  | .verticalWheel | .horizontalWheel => c.wheelsValuesUpdated now

/-- `update_x_stick_sensor_value`. -/
def updateXStickSensorValue (logicalMax logicalMin integerValue : ℤ) (now : AbsoluteTime)
    (c : GamePadStickConverter K) : GamePadStickConverter K × List Entry :=
  c.updateStickSensorValue .x logicalMax logicalMin integerValue now

/-- `update_y_stick_sensor_value`. -/
def updateYStickSensorValue (logicalMax logicalMin integerValue : ℤ) (now : AbsoluteTime)
    (c : GamePadStickConverter K) : GamePadStickConverter K × List Entry :=
  c.updateStickSensorValue .y logicalMax logicalMin integerValue now

/-- `update_vertical_wheel_stick_sensor_value`. -/
def updateVerticalWheelStickSensorValue (logicalMax logicalMin integerValue : ℤ)
    (now : AbsoluteTime) (c : GamePadStickConverter K) : GamePadStickConverter K × List Entry :=
  c.updateStickSensorValue .verticalWheel logicalMax logicalMin integerValue now

/-- `update_horizontal_wheel_stick_sensor_value`. -/
def updateHorizontalWheelStickSensorValue (logicalMax logicalMin integerValue : ℤ)
    (now : AbsoluteTime) (c : GamePadStickConverter K) : GamePadStickConverter K × List Entry :=
  c.updateStickSensorValue .horizontalWheel logicalMax logicalMin integerValue now

/-! ### Values of the device -/

/-- `iokit_hid_value`, with its logical range. -/
structure StickHidValue extends HidValue where
  logicalMax : Option ℤ
  logicalMin : Option ℤ
deriving DecidableEq, Repr

/-- One value of `convert`. -/
def convertValue (swapSticks : Bool) (v : StickHidValue) (now : AbsoluteTime)
    (c : GamePadStickConverter K) : GamePadStickConverter K × List Entry :=
  match v.usagePage, v.usage, v.logicalMax, v.logicalMin with
  | some _, some _, some logicalMax, some logicalMin =>
    if logicalMax ≠ logicalMin then
      if v.conformsTo UsagePage.genericDesktop Usage.GenericDesktop.x then
        if swapSticks then
          c.updateHorizontalWheelStickSensorValue logicalMax logicalMin v.integerValue now
        else c.updateXStickSensorValue logicalMax logicalMin v.integerValue now
      else if v.conformsTo UsagePage.genericDesktop Usage.GenericDesktop.y then
        if swapSticks then
          c.updateVerticalWheelStickSensorValue logicalMax logicalMin v.integerValue now
        else c.updateYStickSensorValue logicalMax logicalMin v.integerValue now
      else if v.conformsTo UsagePage.genericDesktop Usage.GenericDesktop.rz then
        if swapSticks then c.updateYStickSensorValue logicalMax logicalMin v.integerValue now
        else c.updateVerticalWheelStickSensorValue logicalMax logicalMin v.integerValue now
      else if v.conformsTo UsagePage.genericDesktop Usage.GenericDesktop.z then
        if swapSticks then c.updateXStickSensorValue logicalMax logicalMin v.integerValue now
        else c.updateHorizontalWheelStickSensorValue logicalMax logicalMin v.integerValue now
      else (c, [])
    else (c, [])
  | _, _, _, _ => (c, [])

/-- `convert`, with the readings of the clock for its values. -/
def convert (d : Device) (values : List (StickHidValue × AbsoluteTime))
    (c : GamePadStickConverter K) : GamePadStickConverter K × List Entry :=
  match values with
  | [] => (c, [])
  | (v, now) :: values =>
    let converted := c.convertValue (d.values .gamePadSwapSticks).value v now
    let rest := converted.1.convert d values
    (rest.1, converted.2 ++ rest.2)

/-! ### The machine -/

/-- What may happen to a converter: a sensor is updated, the dispatcher runs the first job of the
timer, or a reserved call is due. -/
inductive Input
  | updateStickSensorValue (axis : Axis) (logicalMax logicalMin integerValue : ℤ)
      (now : AbsoluteTime)
  | runJob (now : AbsoluteTime)
  | due (n : ℕ)

/-- What the dispatcher does for the timer. -/
def Input.IsTick : Input → Prop
  | .updateStickSensorValue .. => False
  | .runJob _ | .due _ => True

/-- One step, with the entries that are posted. -/
def step (c : GamePadStickConverter K) : Input → GamePadStickConverter K × List Entry
  | .updateStickSensorValue axis logicalMax logicalMin integerValue now =>
    c.updateStickSensorValue axis logicalMax logicalMin integerValue now
  | .runJob now =>
    let (timer, function) := c.continuedMovementTimer.runJob
    let c := { c with continuedMovementTimer := timer }
    match function with
    | none => (c, [])
    | some f => c.timerFunction f now
  | .due n => ({ c with continuedMovementTimer := c.continuedMovementTimer.due n }, [])

/-- The converter after a step. -/
def next (c : GamePadStickConverter K) (i : Input) : GamePadStickConverter K := (c.step i).1

/-- The converter of a device, after some steps. -/
def after (deviceProperties : DeviceProperties) (d : Device) (inputs : List Input) :
    GamePadStickConverter K :=
  Machine.run next (make deviceProperties d) inputs

/-- The sensors are updated one value after the other. -/
theorem exists_convertValue_eq_step (swapSticks : Bool) (v : StickHidValue) (now : AbsoluteTime)
    (c : GamePadStickConverter K) :
    c.convertValue swapSticks v now = (c, []) ∨
      ∃ axis logicalMax logicalMin,
        c.convertValue swapSticks v now =
          c.step (.updateStickSensorValue axis logicalMax logicalMin v.integerValue now) := by
  unfold convertValue
  split
  · split_ifs
    any_goals exact .inl rfl
    all_goals exact .inr ⟨_, _, _, rfl⟩
  · exact .inl rfl

/-- **`convert` is a run of updates.** -/
theorem exists_convert_eq_run (d : Device) (values : List (StickHidValue × AbsoluteTime))
    (c : GamePadStickConverter K) :
    ∃ inputs : List Input, (∀ i ∈ inputs, ¬i.IsTick) ∧
      c.convert d values = (Machine.run next c inputs, Machine.outputs step c inputs) := by
  induction values generalizing c with
  | nil => exact ⟨[], by simp, rfl⟩
  | cons p values ih =>
      obtain ⟨v, now⟩ := p
      rcases exists_convertValue_eq_step (d.values .gamePadSwapSticks).value v now c with
        hvalue | ⟨axis, logicalMax, logicalMin, hvalue⟩
      · obtain ⟨inputs, hticks, hrun⟩ := ih c
        refine ⟨inputs, hticks, ?_⟩
        rw [convert, hvalue, hrun]
        rfl
      · let i := Input.updateStickSensorValue axis logicalMax logicalMin v.integerValue now
        obtain ⟨inputs, hticks, hrun⟩ := ih (c.step i).1
        refine ⟨i :: inputs, List.forall_mem_cons.mpr ⟨id, hticks⟩, ?_⟩
        rw [convert, hvalue, hrun]
        rfl

end GamePadStickConverter

end Karabiner
