import Karabiner.EventQueue.Utility.Conservation
import Karabiner.Library.Binary64
import Karabiner.Manipulator.PostEventToVirtualDevices.CountConverter
import Karabiner.Manipulator.PostEventToVirtualDevices.PointingButtons
import Mathlib.Data.Rat.Floor

/-!
# The motion of the mouse keys

`post_event` of `post_event_to_virtual_devices/mouse_key_handler.hpp`, which the timer calls while
mouse keys are held.  It posts the total of the keys through one count converter for each axis.  The
converters start again when the total changes.

A `double` is a rational number, and every operation on doubles rounds (`Binary64`).  An `int` is
exact as a double.

* `stepReports_timerInput` — what the timer posts in the final stage.
* `outputs_start` — a run of posts with one total is a run of each converter.
* `outputs_eq_tdiv` — **no motion is lost**: over such a run each axis is rounded once.
-/

namespace Karabiner

/-! ### Totals -/

namespace MouseKey

/-- `operator+=`, which multiplies the speed multipliers. -/
def add (m other : MouseKey) : MouseKey where
  x := m.x + other.x
  y := m.y + other.y
  verticalWheel := m.verticalWheel + other.verticalWheel
  horizontalWheel := m.horizontalWheel + other.horizontalWheel
  speedMultiplier := Binary64.mul m.speedMultiplier other.speedMultiplier

/-- `invert_wheel`. -/
def invertWheel (m : MouseKey) : MouseKey :=
  { m with verticalWheel := -m.verticalWheel, horizontalWheel := -m.horizontalWheel }

/-- The speed on an axis, before it is scaled. -/
def speed (m : MouseKey) : Axis → ℚ
  | .x => Binary64.mul m.x m.speedMultiplier
  | .y => Binary64.mul m.y m.speedMultiplier
  | .verticalWheel => Binary64.mul m.verticalWheel m.speedMultiplier
  | .horizontalWheel => Binary64.mul m.horizontalWheel m.speedMultiplier

end MouseKey

namespace PostEventToVirtualDevices

open CarriedRemainder

/-- What `post_event` reads: the total of the mouse keys, and the scale of the profile in percent.
-/
structure MouseKeyReading where
  total : MouseKey
  mouseKeyXyScale : ℤ
deriving DecidableEq, Repr

namespace MouseKeyReading

/-- The reading of the mouse keys that are held. -/
def ofHandler (h : MouseKeyHandler) (scrollDirectionIsNatural : Bool) (mouseKeyXyScale : ℤ) :
    MouseKeyReading :=
  let total := h.entries.foldl (fun total e => total.add e.2) {}
  ⟨if !scrollDirectionIsNatural then total.invertWheel else total, mouseKeyXyScale⟩

/-- `xy_scale`. -/
def xyScale (r : MouseKeyReading) : ℚ := Binary64.div r.mouseKeyXyScale 100

/-- The value by which the converter of an axis is updated. -/
def value (r : MouseKeyReading) : Axis → ℤ
  | .x => trunc (Binary64.mul (r.total.speed .x) r.xyScale)
  | .y => trunc (Binary64.mul (r.total.speed .y) r.xyScale)
  | .verticalWheel => trunc (r.total.speed .verticalWheel)
  | .horizontalWheel => trunc (r.total.speed .horizontalWheel)

theorem value_nonneg {r : MouseKeyReading} (hscale : 0 ≤ r.mouseKeyXyScale) {a : Axis}
    (hspeed : 0 ≤ r.total.speed a) : 0 ≤ r.value a := by
  have hxyScale : 0 ≤ r.xyScale := Binary64.zero_le_div (Int.cast_nonneg hscale) (by norm_num)
  cases a with
  | x | y => exact ((truncates_trunc _).nonneg (Binary64.zero_le_mul hspeed hxyScale)).1
  | verticalWheel | horizontalWheel => exact ((truncates_trunc _).nonneg hspeed).1

theorem value_nonpos {r : MouseKeyReading} (hscale : 0 ≤ r.mouseKeyXyScale) {a : Axis}
    (hspeed : r.total.speed a ≤ 0) : r.value a ≤ 0 := by
  have hxyScale : 0 ≤ r.xyScale := Binary64.zero_le_div (Int.cast_nonneg hscale) (by norm_num)
  cases a with
  | x | y => exact ((truncates_trunc _).nonpos (Binary64.mul_le_zero hspeed hxyScale)).1
  | verticalWheel | horizontalWheel => exact ((truncates_trunc _).nonpos hspeed).1

end MouseKeyReading

/-! ### Posting -/

/-- The members of `mouse_key_handler` that only `post_event` uses: the last total, and the count
converters of the four axes. -/
structure MouseKeyConverters where
  lastMouseKeyTotal : Option MouseKey := none
  countConverter : Axis → CountConverter := fun _ =>
    { threshold := 128, threshold_pos := by decide }
  threshold_eq : ∀ a, (countConverter a).threshold = 128 := by exact fun _ => rfl

namespace MouseKeyConverters

/-- The converters are reset if the total has changed. -/
def start (total : MouseKey) (c : MouseKeyConverters) : MouseKeyConverters :=
  if c.lastMouseKeyTotal ≠ some total then
    { lastMouseKeyTotal := some total
      countConverter := fun a => (c.countConverter a).reset
      threshold_eq := c.threshold_eq }
  else c

/-- The converters are updated. -/
def update (r : MouseKeyReading) (c : MouseKeyConverters) : MouseKeyConverters where
  lastMouseKeyTotal := c.lastMouseKeyTotal
  countConverter a := (c.countConverter a).next (r.value a)
  threshold_eq a := by rw [CountConverter.threshold_next, c.threshold_eq]

/-- The result for an axis, as the signed byte of the report. -/
def result (r : MouseKeyReading) (c : MouseKeyConverters) (a : Axis) : ℤ :=
  CountConverter.signedByte ((c.countConverter a).update (r.value a)).2

/-- `post_event`, with the motion of the report that it posts. -/
def postEvent (c : MouseKeyConverters) (r : MouseKeyReading) :
    MouseKeyConverters × List PointingMotion :=
  if r.total.isZero then ({ c with lastMouseKeyTotal := none }, [])
  else
    let c := c.start r.total
    (c.update r,
      [⟨c.result r .x, c.result r .y, c.result r .verticalWheel, c.result r .horizontalWheel⟩])

/-- The converters after a post. -/
def next (c : MouseKeyConverters) (r : MouseKeyReading) : MouseKeyConverters := (c.postEvent r).1

/-! ### The timer -/

section

variable [HidReport] [MachTimebase] [Exprtk] [SystemClock]

/-- A call by the timer, as an input of the final stage. -/
def timerInput (c : MouseKeyConverters) (s : Stage) (scrollDirectionIsNatural : Bool)
    (mouseKeyXyScale : ℤ) (timeStamp : AbsoluteTime) : ButtonInput :=
  .mouseKeyTimer (c.postEvent
    (.ofHandler s.manipulator.mouseKeyHandler scrollDirectionIsNatural mouseKeyXyScale)).2.head?
    timeStamp

/-- **The timer posts the motion of the mouse keys that are held.** -/
theorem stepReports_timerInput (c : MouseKeyConverters) (s : Stage)
    (scrollDirectionIsNatural : Bool) (mouseKeyXyScale : ℤ) (timeStamp : AbsoluteTime) :
    (stepReports s
        (c.timerInput s scrollDirectionIsNatural mouseKeyXyScale timeStamp)).2 =
      (c.postEvent (.ofHandler s.manipulator.mouseKeyHandler scrollDirectionIsNatural
        mouseKeyXyScale)).2.map (mouseKeyReport s) := by
  unfold timerInput postEvent
  split_ifs
  · exact (Queue.Appends.refl s.manipulator.queue).pointingReports_appended
  · exact (s.manipulator.queue.appends_emplaceBackPointingInput _ _ _).pointingReports_appended

end

/-! ### Posts with one total -/

theorem lastMouseKeyTotal_start (total : MouseKey) (c : MouseKeyConverters) :
    (c.start total).lastMouseKeyTotal = some total := by
  unfold start
  split_ifs with hlast
  · rfl
  · exact not_not.mp hlast

theorem start_of_eq {total : MouseKey} {c : MouseKeyConverters}
    (h : c.lastMouseKeyTotal = some total) : c.start total = c :=
  if_neg (not_not.mpr h)

/-- After another total, every count starts at zero. -/
theorem count_start {total : MouseKey} {c : MouseKeyConverters}
    (hnew : c.lastMouseKeyTotal ≠ some total) (a : Axis) :
    ((c.start total).countConverter a).count = 0 := by
  rw [start, if_pos hnew]
  rfl

theorem postEvent_of_not_isZero {r : MouseKeyReading} (h : r.total.isZero = false)
    (c : MouseKeyConverters) :
    c.postEvent r = ((c.start r.total).update r,
      [⟨(c.start r.total).result r .x, (c.start r.total).result r .y,
        (c.start r.total).result r .verticalWheel, (c.start r.total).result r .horizontalWheel⟩]) :=
  if_neg (by simp [h])

/-- **A run of posts with one total is a run of each converter.** -/
theorem outputs_start {total : MouseKey} (hnonzero : total.isZero = false)
    {readings : List MouseKeyReading} (hreadings : ∀ r ∈ readings, r.total = total)
    (c : MouseKeyConverters) (a : Axis) :
    ((Machine.outputs postEvent c readings).map fun m => MakeEntries.component m a) =
      (Machine.outputs CountConverter.step ((c.start total).countConverter a)
        (readings.map fun r => r.value a)).map CountConverter.signedByte := by
  induction readings generalizing c with
  | nil => rfl
  | cons r readings ih =>
      obtain ⟨rfl, hreadings⟩ := List.forall_mem_cons.mp hreadings
      have hlast : ((c.start r.total).update r).lastMouseKeyTotal = some r.total :=
        lastMouseKeyTotal_start r.total c
      have hrest := ih hreadings ((c.start r.total).update r)
      rw [start_of_eq hlast] at hrest
      rw [Machine.outputs_cons, postEvent_of_not_isZero hnonzero, List.map_append, hrest]
      cases a <;> rfl

/-- The value of an axis keeps its sign while the total stays. -/
theorem sameSign_value (total : MouseKey) (a : Axis) :
    (∀ r : MouseKeyReading, r.total = total → 0 ≤ r.mouseKeyXyScale → 0 ≤ r.value a) ∨
      (∀ r : MouseKeyReading, r.total = total → 0 ≤ r.mouseKeyXyScale → r.value a ≤ 0) := by
  rcases le_total 0 (total.speed a) with hspeed | hspeed
  · refine .inl fun r hr hscale => r.value_nonneg hscale ?_
    rwa [hr]
  · refine .inr fun r hr hscale => r.value_nonpos hscale ?_
    rwa [hr]

/-- **No motion is lost.**  However many posts it takes, the motion of an axis is what one division
of all the values by 128 gives, rounded towards zero. -/
theorem outputs_eq_tdiv {c : MouseKeyConverters} {total : MouseKey}
    (hnew : c.lastMouseKeyTotal ≠ some total) (hnonzero : total.isZero = false)
    {readings : List MouseKeyReading}
    (hreadings : ∀ r ∈ readings, r.total = total ∧ 0 ≤ r.mouseKeyXyScale) (a : Axis)
    (hfits : ∀ r ∈ readings, |r.value a| ≤ 127 * 128) :
    ((Machine.outputs postEvent c readings).map fun m => MakeEntries.component m a).sum =
      Int.tdiv (readings.map fun r => r.value a).sum 128 := by
  let values := readings.map fun r : MouseKeyReading => r.value a
  have hthreshold := (c.start total).threshold_eq a
  have hcount := count_start hnew a
  have hunclamped : Machine.Steps CountConverter.next (fun c value => c.clamps value = false)
      ((c.start total).countConverter a) values := by
    apply CountConverter.steps_unclamped
    · rw [hcount, hthreshold]
      decide
    · rw [hthreshold]
      exact List.forall_mem_map.mpr hfits
  have hsign : (∀ v ∈ values, 0 ≤ v) ∨ (∀ v ∈ values, v ≤ 0) :=
    (sameSign_value total a).imp
      (fun h => List.forall_mem_map.mpr fun r hr => h r (hreadings r hr).1 (hreadings r hr).2)
      (fun h => List.forall_mem_map.mpr fun r hr => h r (hreadings r hr).1 (hreadings r hr).2)
  obtain ⟨htruncates, -⟩ := CountConverter.steps_truncate hcount hsign hunclamped
  rw [hthreshold] at htruncates
  rw [outputs_start hnonzero fun r hr => (hreadings r hr).1]
  exact htruncates.quotient_eq_tdiv

/-- `outputs_eq_tdiv` for a mouse key that moves by 100 at each of three posts, with a scale of 115
percent: the product is rounded to a double below 115. -/
theorem outputs_eq_tdiv_threePosts :
    let total : MouseKey := { x := 100 }
    let readings : List MouseKeyReading := List.replicate 3 ⟨total, 115⟩
    (∀ r ∈ readings, r.value .x = 114) ∧
      ((Machine.outputs postEvent {} readings).map fun m => MakeEntries.component m .x).sum =
        Int.tdiv (readings.map fun r => r.value .x).sum 128 := by
  have hvalue : MouseKeyReading.value ⟨{ x := 100 }, 115⟩ .x = 114 := by decide +kernel
  refine ⟨fun r hr => List.eq_of_mem_replicate hr ▸ hvalue,
    @outputs_eq_tdiv {} { x := 100 } (by decide) rfl _ ?_ .x ?_⟩
  · intro r hr
    rw [List.eq_of_mem_replicate hr]
    decide
  · intro r hr
    rw [List.eq_of_mem_replicate hr, hvalue]
    decide

end MouseKeyConverters

end PostEventToVirtualDevices

end Karabiner
