import Karabiner.JsonUtility
import Mathlib.Algebra.Field.Rat

/-!
# Options of `mouse_motion_to_scroll`

`share/manipulator/manipulators/mouse_motion_to_scroll/options.hpp`.  Every setter replaces a value
that is not positive by the default, so the options keep positive numbers whatever JSON they are
updated from; the structure carries that.

The floating-point multiplier is a rational.
-/

namespace Karabiner.MouseMotionToScroll

open JsonUtility

/-- `options`. -/
structure Options where
  momentumScrollEnabled : Bool := true
  speedMultiplier : ℚ := 1
  recentTimeDurationMilliseconds : ℤ := 100
  threshold : ℤ := 128
  directionLockThreshold : ℤ := 4
  scrollEventIntervalMillisecondsThreshold : ℤ := 100
  speedMultiplier_pos : 0 < speedMultiplier := by decide
  recentTimeDuration_pos : 0 < recentTimeDurationMilliseconds := by decide
  threshold_pos : 0 < threshold := by decide
  directionLockThreshold_pos : 0 < directionLockThreshold := by decide
  scrollEventInterval_pos : 0 < scrollEventIntervalMillisecondsThreshold := by decide

namespace Options

/-- What a setter stores: the value, or the default for one that is not positive. -/
def positiveOr {α : Type} [Zero α] [LT α] [DecidableLT α] (default value : α) : α :=
  if 0 < value then value else default

theorem positiveOr_pos {α : Type} [Zero α] [LT α] [DecidableLT α] {default : α}
    (hdefault : 0 < default) (value : α) : 0 < positiveOr default value := by
  unfold positiveOr
  split_ifs with hvalue
  · exact hvalue
  · exact hdefault

/-- `set_momentum_scroll_enabled`. -/
def setMomentumScrollEnabled (value : Bool) (o : Options) : Options :=
  { o with momentumScrollEnabled := value }

/-- `set_speed_multiplier`. -/
def setSpeedMultiplier (value : ℚ) (o : Options) : Options :=
  { o with
    speedMultiplier := positiveOr 1 value
    speedMultiplier_pos := positiveOr_pos (by decide) value }

/-- `set_recent_time_duration_milliseconds`. -/
def setRecentTimeDurationMilliseconds (value : ℤ) (o : Options) : Options :=
  { o with
    recentTimeDurationMilliseconds := positiveOr 100 value
    recentTimeDuration_pos := positiveOr_pos (by decide) value }

/-- `set_threshold`. -/
def setThreshold (value : ℤ) (o : Options) : Options :=
  { o with
    threshold := positiveOr 128 value
    threshold_pos := positiveOr_pos (by decide) value }

/-- `set_direction_lock_threshold`. -/
def setDirectionLockThreshold (value : ℤ) (o : Options) : Options :=
  { o with
    directionLockThreshold := positiveOr 4 value
    directionLockThreshold_pos := positiveOr_pos (by decide) value }

/-- `set_scroll_event_interval_milliseconds_threshold`. -/
def setScrollEventIntervalMillisecondsThreshold (value : ℤ) (o : Options) : Options :=
  { o with
    scrollEventIntervalMillisecondsThreshold := positiveOr 100 value
    scrollEventInterval_pos := positiveOr_pos (by decide) value }

section

variable [NlohmannJson]

/-- One member of the JSON.  Unknown keys are ignored. -/
def readMember (o : Options) (key : String) (value : Json) : JsonM Options :=
  if key = "momentum_scroll_enabled" then
    return o.setMomentumScrollEnabled (← requiresBoolean value (quote key))
  else if key = "speed_multiplier" then
    return o.setSpeedMultiplier (← requiresNumber Json.toRat value (quote key))
  else if key = "threshold" then
    return o.setThreshold (← requiresNumber (Json.toInt 32) value (quote key))
  else if key = "recent_time_duration_milliseconds" then
    return o.setRecentTimeDurationMilliseconds
      (← requiresNumber (Json.toInt 32) value (quote key))
  else if key = "direction_lock_threshold" then
    return o.setDirectionLockThreshold (← requiresNumber (Json.toInt 32) value (quote key))
  else if key = "scroll_event_interval_milliseconds_threshold" then
    return o.setScrollEventIntervalMillisecondsThreshold
      (← requiresNumber (Json.toInt 32) value (quote key))
  else return o

/-- `update`. -/
def update (json : Json) (o : Options) : JsonM Options := do
  let members ← requiresObject json "json"
  members.foldlM (fun o (key, value) => o.readMember key value) o

end

end Options

end Karabiner.MouseMotionToScroll
