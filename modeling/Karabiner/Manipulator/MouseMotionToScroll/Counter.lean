import Karabiner.CoreConfiguration.ComplexModifications
import Karabiner.EventQueue.Event
import Karabiner.Library.Machine
import Karabiner.Manipulator.MouseMotionToScroll.Options
import Mathlib.Data.Rat.Floor

/-!
# The counter of `mouse_motion_to_scroll`

`share/manipulator/manipulators/mouse_motion_to_scroll/counter*.hpp`.  Motion is collected into
chunks (`processEntries`), each chunk enlarges the total of one axis, and every tick of the timer
moves a part of the totals into the momentums, which leave as wheel motion (`scroll`).

What the source keeps twice, once with `_x_` and once with `_y_`, is an `Axis`.  The jobs of the
dispatcher are the inputs: a motion, a tick with its two readings of the clock, and a reset.  A tick
may come at any time, also one that was under way when the timer was stopped.

An `int` is an integer and a `double` a rational, and a conversion between them is exact.

* `Axis.convert_of_nonneg`, `Axis.convert_of_nonpos` — `convert` keeps signs.
* `Counter.scroll_cases` — a scroll waits, returns early or moves the totals.
-/

namespace Karabiner

/-- `make_mouse_motion_to_scroll_speed_rate`. -/
def CoreConfiguration.ComplexModificationsParameters.makeMouseMotionToScrollSpeedRate
    (p : CoreConfiguration.ComplexModificationsParameters) : ℚ :=
  (p.values .mouseMotionToScrollSpeed).value.toInt / 100

namespace MouseMotionToScroll

/-- `pqrs::dispatcher::time_point`, in milliseconds. -/
abbrev TimePoint := ℤ

/-! ### Chunks -/

/-- `counter_entry`. -/
structure CounterEntry where
  x : ℤ
  y : ℤ
  timePoint : TimePoint
deriving DecidableEq, Repr

/-- `counter_direction`. -/
inductive CounterDirection
  | none
  | vertical
  | horizontal
deriving DecidableEq, Repr

/-- `pqrs::sign`. -/
inductive Sign
  | zero
  | plus
  | minus
deriving DecidableEq, Repr

/-- `pqrs::make_sign`. -/
def makeSign (value : ℤ) : Sign :=
  if 0 < value then .plus else if value < 0 then .minus else .zero

/-- `counter_chunk_value`. -/
structure CounterChunkValue where
  plusValue : ℤ := 0
  minusValue : ℤ := 0
  absTotal : ℤ := 0
  lastSign : Sign := .zero
deriving DecidableEq, Repr

namespace CounterChunkValue

/-- `add`. -/
def add (value : ℤ) (c : CounterChunkValue) : CounterChunkValue :=
  let c :=
    if 0 < value then { c with plusValue := c.plusValue + value, lastSign := .plus }
    else if value < 0 then { c with minusValue := c.minusValue + value, lastSign := .minus }
    else c
  { c with absTotal := c.absTotal + |value| }

/-- `make_accumulated_value`. -/
def makeAccumulatedValue (c : CounterChunkValue) : ℤ :=
  if |c.plusValue| > |c.minusValue| then c.plusValue
  else if |c.plusValue| < |c.minusValue| then c.minusValue
  else
    match c.lastSign with
    | .zero => 0
    | .plus => c.plusValue
    | .minus => c.minusValue

end CounterChunkValue

/-- The variables of the loop that takes a chunk off `entries_`. -/
structure Chunk where
  x : CounterChunkValue := {}
  y : CounterChunkValue := {}
  lastEntryTimePoint : Option TimePoint
  entries : List CounterEntry

/-- The loop. -/
def Chunk.accumulate (recent : ℤ) (front : TimePoint) (c : Chunk) : List CounterEntry → Chunk
  | [] => { c with entries := [] }
  | entry :: entries =>
    if entry.timePoint - front ≤ recent then
      accumulate recent front
        { c with
          x := c.x.add entry.x
          y := c.y.add entry.y
          lastEntryTimePoint := some entry.timePoint } entries
    else { c with entries := entry :: entries }

/-! ### Axes -/

/-- The members of a counter that belong to one axis. -/
structure Axis where
  chunkAccumulatedValues : List (TimePoint × ℤ) := []
  total : ℤ := 0
  momentum : ℤ := 0
deriving DecidableEq, Repr

/-- `round_up`. -/
def roundUp (value : ℚ) : ℤ :=
  if 0 < value then ⌈value⌉ else if value < 0 then ⌈value⌉ - 1 else 0

/-- `reduce`. -/
def reduce (value amount : ℤ) : ℤ :=
  if 0 < value then value - min amount value
  else if value < 0 then value + min amount (-value)
  else value

namespace Axis

variable (options : Options)

/-- `erase_chunk_accumulated_values`. -/
def eraseChunkAccumulatedValues (timePoint : TimePoint) (a : Axis) : Axis :=
  let threshold := options.recentTimeDurationMilliseconds * options.directionLockThreshold
  { a with
    chunkAccumulatedValues :=
      a.chunkAccumulatedValues.filter fun p => ¬ timePoint - p.1 > threshold }

/-- `accumulate_abs_chunk_accumulated_values`. -/
def accumulateAbsChunkAccumulatedValues (a : Axis) : ℤ :=
  a.chunkAccumulatedValues.foldl (fun sum p => sum + |p.2|) 0

/-- The value of a chunk is kept for the direction lock. -/
def pushBack (front : TimePoint) (value : ℤ) (a : Axis) : Axis :=
  { a with chunkAccumulatedValues := a.chunkAccumulatedValues ++ [(front, value)] }

/-- The total and the momentum are given up. -/
def clear (a : Axis) : Axis := { a with total := 0, momentum := 0 }

/-- A value that turns the axis around. -/
def signChanges (value : ℤ) (a : Axis) : Bool :=
  value ≠ 0 && makeSign a.total ≠ makeSign value

/-- The first motion after a pause or a turn scrolls at once. -/
def enlarge (leastValue : ℤ) (a : Axis) : Axis :=
  { a with
    total :=
      if 0 < a.total then max a.total leastValue
      else if a.total < 0 then min a.total (-leastValue)
      else a.total }

/-- The first loop of `convert`, on the value and the result. -/
def convertPlus (value result : ℤ) : ℤ × ℤ :=
  if options.threshold ≤ value then
    if options.momentumScrollEnabled then (value - options.threshold, result + 1)
    else convertPlus (value - options.threshold) (result + 1)
  else (value, result)
termination_by value.toNat
decreasing_by
  have := options.threshold_pos
  omega

/-- The second loop. -/
def convertMinus (value result : ℤ) : ℤ × ℤ :=
  if value ≤ -options.threshold then
    if options.momentumScrollEnabled then (value + options.threshold, result - 1)
    else convertMinus (value + options.threshold) (result - 1)
  else (value, result)
termination_by (-value).toNat
decreasing_by
  have := options.threshold_pos
  omega

/-- `convert`, with the value it leaves. -/
def convert (value : ℤ) : ℤ × ℤ :=
  let plus := convertPlus options value 0
  convertMinus options plus.1 plus.2

variable {options}

/-- Only a positive value goes through the first loop. -/
theorem convertPlus_of_nonpos {value : ℤ} (hvalue : value ≤ 0) (result : ℤ) :
    convertPlus options value result = (value, result) := by
  have hthreshold := options.threshold_pos
  rw [convertPlus, if_neg (by omega)]

theorem convertPlus_of_nonneg {value : ℤ} (hvalue : 0 ≤ value) (result : ℤ) :
    0 ≤ (convertPlus options value result).1 ∧ result ≤ (convertPlus options value result).2 := by
  fun_induction convertPlus options value result with
  | case1 value result hle honce =>
      have hthreshold := options.threshold_pos
      constructor
      · show 0 ≤ value - options.threshold
        omega
      · show result ≤ result + 1
        omega
  | case2 value result hle honce ih =>
      obtain ⟨hleft, hresult⟩ := ih (by omega)
      exact ⟨hleft, by omega⟩
  | case3 value result hlt => exact ⟨hvalue, le_refl result⟩

/-- Only a negative value goes through the second loop. -/
theorem convertMinus_of_nonneg {value : ℤ} (hvalue : 0 ≤ value) (result : ℤ) :
    convertMinus options value result = (value, result) := by
  have hthreshold := options.threshold_pos
  rw [convertMinus, if_neg (by omega)]

theorem convertMinus_of_nonpos {value : ℤ} (hvalue : value ≤ 0) (result : ℤ) :
    (convertMinus options value result).1 ≤ 0 ∧
      (convertMinus options value result).2 ≤ result := by
  fun_induction convertMinus options value result with
  | case1 value result hle honce =>
      have hthreshold := options.threshold_pos
      constructor
      · show value + options.threshold ≤ 0
        omega
      · show result - 1 ≤ result
        omega
  | case2 value result hle honce ih =>
      obtain ⟨hleft, hresult⟩ := ih (by omega)
      exact ⟨hleft, by omega⟩
  | case3 value result hlt => exact ⟨hvalue, le_refl result⟩

/-- **What is converted and what is left have the sign of the value.** -/
theorem convert_of_nonneg (options : Options) {value : ℤ} (hvalue : 0 ≤ value) :
    0 ≤ (convert options value).1 ∧ 0 ≤ (convert options value).2 := by
  obtain ⟨hleft, hresult⟩ := convertPlus_of_nonneg hvalue 0
  rw [convert, convertMinus_of_nonneg hleft]
  exact ⟨hleft, hresult⟩

theorem convert_of_nonpos (options : Options) {value : ℤ} (hvalue : value ≤ 0) :
    (convert options value).1 ≤ 0 ∧ (convert options value).2 ≤ 0 := by
  rw [convert, convertPlus_of_nonpos hvalue]
  exact convertMinus_of_nonpos hvalue 0

theorem convert_zero : convert options 0 = (0, 0) := by
  rw [convert, convertPlus_of_nonpos le_rfl, convertMinus_of_nonneg le_rfl]

variable (options)

/-- What a tick moves into the momentum, and what leaves the momentum. -/
def move (scale : ℚ) (a : Axis) : Axis × ℤ :=
  let converted := convert options (a.momentum + roundUp (a.total * scale))
  ({ a with momentum := converted.1 }, converted.2)

end Axis

/-! ### The counter -/

/-- `counter`.  The constructor does not initialize `momentum_minus_`. -/
structure Counter where
  entries : List CounterEntry := []
  lastEntryTimePoint : Option TimePoint := none
  lastScrollTimePoint : Option TimePoint := none
  direction : CounterDirection := .none
  x : Axis := {}
  y : Axis := {}
  momentumMinus : ℤ
  momentumCount : ℤ := 0
  momentumWait : ℤ := 0
  timerEnabled : Bool := false

namespace Counter

/-- The job of `update`. -/
def update (motion : PointingMotion) (timePoint : TimePoint) (c : Counter) : Counter :=
  { c with
    entries := c.entries ++ [⟨motion.x, motion.y, timePoint⟩]
    timerEnabled := true }

/-- The job of `async_reset`. -/
def asyncReset (c : Counter) : Counter :=
  { momentumMinus := c.momentumMinus, timerEnabled := c.timerEnabled }

variable (parameters : CoreConfiguration.ComplexModificationsParameters) (options : Options)

/-- The direction is given up when the other axis has moved more. -/
def resetDirection (c : Counter) : Counter :=
  let recentChunksTotalX := c.x.accumulateAbsChunkAccumulatedValues
  let recentChunksTotalY := c.y.accumulateAbsChunkAccumulatedValues
  match c.direction with
  | .horizontal =>
    if recentChunksTotalY > recentChunksTotalX then { c with direction := .none } else c
  | .vertical =>
    if recentChunksTotalX > recentChunksTotalY then { c with direction := .none } else c
  | .none => c

/-- A counter without a direction takes that of the chunk. -/
def setDirection (chunk : Chunk) (c : Counter) : Counter :=
  if c.direction = .none then
    { c with
      direction := if chunk.x.absTotal > chunk.y.absTotal then .horizontal else .vertical
      x := c.x.clear
      y := c.y.clear
      momentumMinus := options.threshold }
  else c

/-- The axis `x` starts again when its sign changes. -/
def turnX (value : ℤ) (c : Counter) : Counter :=
  if c.x.signChanges value then
    { c with x := c.x.clear, momentumMinus := options.threshold }
  else c

/-- The axis `y` starts again when its sign changes. -/
def turnY (value : ℤ) (c : Counter) : Counter :=
  if c.y.signChanges value then
    { c with y := c.y.clear, momentumMinus := options.threshold }
  else c

/-- The values of a chunk, multiplied. -/
def multiply (value : ℤ) : ℤ :=
  Json.truncate
    (value * (parameters.makeMouseMotionToScrollSpeedRate * options.speedMultiplier))

/-- The values are added to the totals. -/
def add (x y : ℤ) (c : Counter) : Counter :=
  { c with
    x := { c.x with total := c.x.total + x }
    y := { c.y with total := c.y.total + y } }

/-- The totals of an initial event are enlarged. -/
def enlarge (c : Counter) : Counter :=
  let leastValue := if options.threshold = 0 then 1 else options.threshold
  { c with x := c.x.enlarge leastValue, y := c.y.enlarge leastValue }

/-- How much of the totals a tick takes away. -/
def updateMomentumMinus (c : Counter) : Counter :=
  let value : ℚ := (max |c.x.total| |c.y.total| : ℤ)
  let value := value / options.threshold
  let value := if value > 10 then 10 else value
  let minus := Json.truncate (options.threshold / value ^ 4)
  let minus := if minus ≤ 0 then 1 else minus
  { c with momentumMinus := min c.momentumMinus minus }

/-- `process_entries`, from "Modify total_*" on. -/
def raiseTotals (initial : Bool) (x y : ℤ) (c : Counter) : Counter :=
  let c := c.add x y
  if c.x.total = 0 ∧ c.y.total = 0 then c
  else
    let c := if initial then c.enlarge options else c
    { c.updateMomentumMinus options with
      lastScrollTimePoint := none, momentumCount := 0, momentumWait := 0 }

/-- `process_entries`, from "Apply direction" on. -/
def applyChunk (initial : Bool) (x y : ℤ) (c : Counter) : Counter :=
  let y := if c.direction = .horizontal then 0 else y
  let x := if c.direction = .vertical then 0 else x
  let initial := initial || c.x.signChanges x || c.y.signChanges y
  ((c.turnX options x).turnY options y).raiseTotals options initial
    (multiply parameters options x) (multiply parameters options y)

/-- `process_entries`, once the front entry is not recent. -/
def processChunk (front : TimePoint) (c : Counter) : Counter :=
  let axisX := c.x.eraseChunkAccumulatedValues options front
  let axisY := c.y.eraseChunkAccumulatedValues options front
  let initial := axisX.chunkAccumulatedValues.isEmpty && axisY.chunkAccumulatedValues.isEmpty
  let chunk := Chunk.accumulate options.recentTimeDurationMilliseconds front
    { lastEntryTimePoint := c.lastEntryTimePoint, entries := c.entries } c.entries
  let x := chunk.x.makeAccumulatedValue
  let y := chunk.y.makeAccumulatedValue
  let c := { c with
    entries := chunk.entries
    lastEntryTimePoint := chunk.lastEntryTimePoint
    direction := if initial then .none else c.direction
    x := axisX.pushBack front x
    y := axisY.pushBack front y }
  (c.resetDirection.setDirection options chunk).applyChunk parameters options initial x y

/-- `process_entries`, with its result. -/
def processEntries (now : TimePoint) (c : Counter) : Counter × Bool :=
  match c.entries with
  | [] => (c, false)
  | front :: _ =>
    if now - front.timePoint ≤ options.recentTimeDurationMilliseconds then (c, true)
    else (c.processChunk parameters options front.timePoint, true)

/-- The last scroll event is too long ago. -/
def scrollExpired (now : TimePoint) (c : Counter) : Bool :=
  c.lastScrollTimePoint.any fun last =>
    now - last > options.scrollEventIntervalMillisecondsThreshold

/-- How much of the totals goes into the momentums. -/
def scale (c : Counter) : ℚ :=
  if !options.momentumScrollEnabled && c.momentumCount > 1 then 0 else 1 / c.momentumCount

/-- The scroll event of a scroll, if there is one. -/
def scrollEvent (c : Counter) : List PointingMotion :=
  let x := (c.x.move options (c.scale options)).2
  let y := (c.y.move options (c.scale options)).2
  if x ≠ 0 ∨ y ≠ 0 then [⟨0, 0, -y, x⟩] else []

/-- The totals go into the momentums and are reduced. -/
def reduceTotals (now : TimePoint) (c : Counter) : Counter :=
  let x := c.x.move options (c.scale options)
  let y := c.y.move options (c.scale options)
  { c with
    lastScrollTimePoint := if x.2 ≠ 0 ∨ y.2 ≠ 0 then some now else c.lastScrollTimePoint
    x := { x.1 with total := reduce x.1.total c.momentumMinus }
    y := { y.1 with total := reduce y.1.total c.momentumMinus } }

/-- The next scrolls wait. -/
def setMomentumWait (c : Counter) : Counter :=
  if options.momentumScrollEnabled then { c with momentumWait := min c.momentumCount 10 } else c

/-- `scroll`, from the computation of the scale on. -/
def moveTotals (now : TimePoint) (c : Counter) : Counter × List PointingMotion × Bool :=
  let reduced := c.reduceTotals options now
  if reduced.x.total = 0 ∧ reduced.y.total = 0 then (reduced, c.scrollEvent options, false)
  else (reduced.setMomentumWait options, c.scrollEvent options, true)

/-- `scroll`, with the motions of its events and its result. -/
def scroll (now : TimePoint) (c : Counter) : Counter × List PointingMotion × Bool :=
  if c.momentumWait > 0 then ({ c with momentumWait := c.momentumWait - 1 }, [], true)
  else
    let c := { c with momentumCount := c.momentumCount + 1 }
    if c.momentumCount = 0 then (c, [], false)
    else if c.scrollExpired options now then (c, [], false)
    else c.moveTotals options now

/-- A scroll that neither waits nor returns early. -/
def Scrolls (now : TimePoint) (c : Counter) : Prop :=
  c.momentumWait ≤ 0 ∧ c.momentumCount + 1 ≠ 0 ∧ c.scrollExpired options now = false

theorem scroll_of_scrolls {now : TimePoint} {c : Counter} (h : c.Scrolls options now) :
    c.scroll options now =
      { c with momentumCount := c.momentumCount + 1 }.moveTotals options now := by
  obtain ⟨hwait, hcount, hexpired⟩ := h
  unfold scroll
  rw [if_neg (not_lt.mpr hwait)]
  dsimp only
  rw [if_neg hcount, if_neg (by rw [Bool.not_eq_true]; exact hexpired)]

/-- **Inversion of `scroll`.** -/
theorem scroll_cases (now : TimePoint) (c : Counter) :
    (0 < c.momentumWait ∧
      c.scroll options now = ({ c with momentumWait := c.momentumWait - 1 }, [], true)) ∨
    (c.momentumWait ≤ 0 ∧
      c.scroll options now = ({ c with momentumCount := c.momentumCount + 1 }, [], false)) ∨
    (c.Scrolls options now ∧
      c.scroll options now =
        { c with momentumCount := c.momentumCount + 1 }.moveTotals options now) := by
  by_cases hscrolls : c.Scrolls options now
  · exact .inr (.inr ⟨hscrolls, scroll_of_scrolls options hscrolls⟩)
  by_cases hwait : 0 < c.momentumWait
  · exact .inl ⟨hwait, if_pos hwait⟩
  refine .inr (.inl ⟨not_lt.mp hwait, ?_⟩)
  unfold scroll
  rw [if_neg hwait]
  by_cases hcount : c.momentumCount + 1 = 0
  · exact if_pos hcount
  dsimp only
  rw [if_neg hcount]
  refine if_pos (by_contra fun hexpired => hscrolls ⟨not_lt.mp hwait, hcount, ?_⟩)
  exact Bool.not_eq_true _ ▸ hexpired

/-- The function of the timer.  The clock is read once for the entries and once for the scroll. -/
def tick (now later : TimePoint) (c : Counter) : Counter × List PointingMotion :=
  let processed := c.processEntries parameters options now
  let scrolled := processed.1.scroll options later
  ({ scrolled.1 with
      timerEnabled := scrolled.1.timerEnabled && (processed.2 || scrolled.2.2) }, scrolled.2.1)

/-! ### Runs -/

/-- The jobs of the dispatcher. -/
inductive Input
  | update (motion : PointingMotion) (timePoint : TimePoint)
  | tick (now later : TimePoint)
  | asyncReset

/-- A job, with the motions of the scroll events that arrive from it. -/
def step (c : Counter) : Input → Counter × List PointingMotion
  | .update motion timePoint => (c.update motion timePoint, [])
  | .tick now later => c.tick parameters options now later
  | .asyncReset => (c.asyncReset, [])

/-- The counter after some jobs.  Nothing is known of the first `momentum_minus_`. -/
def after (momentumMinus : ℤ) (inputs : List Input) : Counter :=
  Machine.run (fun c i => (c.step parameters options i).1) { momentumMinus } inputs

end Counter

end MouseMotionToScroll

end Karabiner
