import Karabiner.CoreConfiguration.Device
import Karabiner.EventQueue.Queue
import Karabiner.Manipulator.ConditionFactory
import Karabiner.Manipulator.Types

/-!
# The `mouse_basic` manipulator

`manipulators/mouse_basic/mouse_basic.hpp`, and the JSON that
`simple_modifications_manipulator_manager::update` makes of the mouse settings of a device.

* `fromJson_deviceJson` — **the settings of a device arrive**: the JSON is read to exactly the
  flags that are on, and there is no JSON when none is.
* `apply_ofDevice` — what the settings of a device make of a motion, axis by axis.
-/

namespace Karabiner

open CoreConfiguration JsonUtility

/-! ### The flags -/

/-- The flags of a `mouse_basic`. -/
structure MouseBasicDefinition where
  flipX : Bool := false
  flipY : Bool := false
  flipVerticalWheel : Bool := false
  flipHorizontalWheel : Bool := false
  swapXy : Bool := false
  swapWheels : Bool := false
  discardX : Bool := false
  discardY : Bool := false
  discardVerticalWheel : Bool := false
  discardHorizontalWheel : Bool := false
deriving DecidableEq, Repr

namespace MouseBasicDefinition

/-- Some flag is on. -/
def isOn (d : MouseBasicDefinition) : Bool :=
  d.flipX || d.flipY || d.flipVerticalWheel || d.flipHorizontalWheel || d.swapXy || d.swapWheels ||
    d.discardX || d.discardY || d.discardVerticalWheel || d.discardHorizontalWheel

/-! ### Motions -/

/-- The part of `manipulate` that swaps. -/
def swap (d : MouseBasicDefinition) (motion : PointingMotion) : PointingMotion :=
  let motion := if d.swapXy then { motion with x := motion.y, y := motion.x } else motion
  if d.swapWheels then
    { motion with
      verticalWheel := motion.horizontalWheel
      horizontalWheel := motion.verticalWheel }
  else motion

/-- The part of `manipulate` that flips. -/
def flip (d : MouseBasicDefinition) (motion : PointingMotion) : PointingMotion :=
  let motion := if d.flipX then { motion with x := -motion.x } else motion
  let motion := if d.flipY then { motion with y := -motion.y } else motion
  let motion :=
    if d.flipVerticalWheel then { motion with verticalWheel := -motion.verticalWheel } else motion
  if d.flipHorizontalWheel then { motion with horizontalWheel := -motion.horizontalWheel }
  else motion

/-- The part of `manipulate` that discards. -/
def discard (d : MouseBasicDefinition) (motion : PointingMotion) : PointingMotion :=
  let motion := if d.discardX then { motion with x := 0 } else motion
  let motion := if d.discardY then { motion with y := 0 } else motion
  let motion := if d.discardVerticalWheel then { motion with verticalWheel := 0 } else motion
  if d.discardHorizontalWheel then { motion with horizontalWheel := 0 } else motion

/-- What is posted in place of a motion.  It is swapped before it is flipped. -/
def apply (d : MouseBasicDefinition) (motion : PointingMotion) : PointingMotion :=
  d.discard (d.flip (d.swap motion))

/-- An item of `flip`.  Other items are ignored. -/
def setFlip (d : MouseBasicDefinition) (item : String) : MouseBasicDefinition :=
  if item = "x" then { d with flipX := true }
  else if item = "y" then { d with flipY := true }
  else if item = "vertical_wheel" then { d with flipVerticalWheel := true }
  else if item = "horizontal_wheel" then { d with flipHorizontalWheel := true }
  else d

/-- An item of `swap`. -/
def setSwap (d : MouseBasicDefinition) (item : String) : MouseBasicDefinition :=
  if item = "xy" then { d with swapXy := true }
  else if item = "wheels" then { d with swapWheels := true }
  else d

/-- An item of `discard`. -/
def setDiscard (d : MouseBasicDefinition) (item : String) : MouseBasicDefinition :=
  if item = "x" then { d with discardX := true }
  else if item = "y" then { d with discardY := true }
  else if item = "vertical_wheel" then { d with discardVerticalWheel := true }
  else if item = "horizontal_wheel" then { d with discardHorizontalWheel := true }
  else d

variable [NlohmannJson]

/-- The items of a member. -/
def readItems (set : MouseBasicDefinition → String → MouseBasicDefinition)
    (d : MouseBasicDefinition) (key : String) (value : Json) : JsonM MouseBasicDefinition := do
  let elements ← requiresArray value (quote key)
  elements.foldlM (fun d j => return set d (← requiresString j ("items in " ++ quote key))) d

/-- The constructor from JSON. -/
def fromJson (json : Json) : JsonM MouseBasicDefinition :=
  readObject
    (fun d key value =>
      if key = "flip" then readItems setFlip d key value
      else if key = "swap" then readItems setSwap d key value
      else if key = "discard" then readItems setDiscard d key value
      else if key ∈ ["description", "conditions", "parameters", "type"] then return d
      else .error (ConditionFactory.unknownKeyIn key json))
    {} json

/-! ### The settings of a device -/

omit [NlohmannJson] in
/-- The mouse settings of a device. -/
def ofDevice (device : Device) : MouseBasicDefinition where
  flipX := (device.values .mouseFlipX).value
  flipY := (device.values .mouseFlipY).value
  flipVerticalWheel := (device.values .mouseFlipVerticalWheel).value
  flipHorizontalWheel := (device.values .mouseFlipHorizontalWheel).value
  swapXy := (device.values .mouseSwapXy).value
  swapWheels := (device.values .mouseSwapWheels).value
  discardX := (device.values .mouseDiscardX).value
  discardY := (device.values .mouseDiscardY).value
  discardVerticalWheel := (device.values .mouseDiscardVerticalWheel).value
  discardHorizontalWheel := (device.values .mouseDiscardHorizontalWheel).value

omit [NlohmannJson] in
/-- An axis under three settings, which has the value of the other axis if both are swapped. -/
def axis (swap flip discard : Bool) (own other : ℤ) : ℤ :=
  if discard then 0 else (if flip then -1 else 1) * if swap then other else own

omit [NlohmannJson] in
/-- What the settings of a device say about a motion. -/
def settle (device : Device) (motion : PointingMotion) : PointingMotion :=
  let swapXy := (device.values .mouseSwapXy).value
  let swapWheels := (device.values .mouseSwapWheels).value
  { x := axis swapXy (device.values .mouseFlipX).value (device.values .mouseDiscardX).value
      motion.x motion.y
    y := axis swapXy (device.values .mouseFlipY).value (device.values .mouseDiscardY).value
      motion.y motion.x
    verticalWheel := axis swapWheels (device.values .mouseFlipVerticalWheel).value
      (device.values .mouseDiscardVerticalWheel).value motion.verticalWheel motion.horizontalWheel
    horizontalWheel := axis swapWheels (device.values .mouseFlipHorizontalWheel).value
      (device.values .mouseDiscardHorizontalWheel).value motion.horizontalWheel
      motion.verticalWheel }

omit [NlohmannJson] in
/-- The names of the settings that are on. -/
def items (settings : List (Bool × String)) : List Json :=
  (settings.filter Prod.fst).map fun setting => .string setting.2

omit [NlohmannJson] in
/-- The JSON that `update` makes for a device, if a setting is on. -/
def deviceJson (device : Device) : Option Json :=
  let flip := items [
    ((device.values .mouseFlipX).value, "x"),
    ((device.values .mouseFlipY).value, "y"),
    ((device.values .mouseFlipVerticalWheel).value, "vertical_wheel"),
    ((device.values .mouseFlipHorizontalWheel).value, "horizontal_wheel")]
  let swap := items [
    ((device.values .mouseSwapXy).value, "xy"),
    ((device.values .mouseSwapWheels).value, "wheels")]
  let discard := items [
    ((device.values .mouseDiscardX).value, "x"),
    ((device.values .mouseDiscardY).value, "y"),
    ((device.values .mouseDiscardVerticalWheel).value, "vertical_wheel"),
    ((device.values .mouseDiscardHorizontalWheel).value, "horizontal_wheel")]
  if flip.length > 0 || swap.length > 0 || discard.length > 0 then
    some (.object [
      ("discard", .array discard), ("flip", .array flip), ("swap", .array swap),
      ("type", .string "mouse_basic")])
  else none

/-- The items of a member set their flags. -/
theorem readItems_items (set : MouseBasicDefinition → String → MouseBasicDefinition)
    (d : MouseBasicDefinition) (key : String) (settings : List (Bool × String)) :
    readItems set d key (.array (items settings)) =
      .ok (settings.foldl (fun d setting => if setting.1 then set d setting.2 else d) d) := by
  unfold readItems items
  rw [requiresArray, JsonM.ok_bind]
  induction settings generalizing d with
  | nil => rfl
  | cons setting settings ih =>
      obtain ⟨isOn, name⟩ := setting
      cases isOn with
      | true => exact ih (set d name)
      | false => exact ih d

omit [NlohmannJson] in
theorem length_items_pos (settings : List (Bool × String)) :
    (items settings).length > 0 ↔ ∃ setting ∈ settings, setting.1 = true := by
  rw [items, List.length_map, gt_iff_lt, List.length_pos_iff, ne_eq, List.filter_eq_nil_iff]
  push Not
  rfl

omit [NlohmannJson] in
/-- There is JSON when a flag is on. -/
theorem deviceJson_eq_none_iff (device : Device) :
    deviceJson device = none ↔ (ofDevice device).isOn = false := by
  unfold deviceJson
  dsimp only
  split_ifs with hany
  · simp only [Bool.or_eq_true, decide_eq_true_eq, length_items_pos, List.mem_cons,
      List.not_mem_nil, or_false, exists_eq_or_imp, exists_eq_left] at hany
    simp only [isOn, ofDevice, false_iff, Bool.not_eq_false, Bool.or_eq_true]
    tauto
  · simp only [Bool.or_eq_true, decide_eq_true_eq, length_items_pos, List.mem_cons,
      List.not_mem_nil, or_false, exists_eq_or_imp, exists_eq_left] at hany
    simp only [isOn, ofDevice, true_iff, ← Bool.not_eq_true, Bool.or_eq_true]
    tauto

omit [NlohmannJson] in
/-- The flags that the settings of `flip` set. -/
theorem foldl_setFlip (d : MouseBasicDefinition) (x y vertical horizontal : Bool) :
    [(x, "x"), (y, "y"), (vertical, "vertical_wheel"), (horizontal, "horizontal_wheel")].foldl
        (fun d setting => if setting.1 then setFlip d setting.2 else d) d =
      { d with
        flipX := d.flipX || x
        flipY := d.flipY || y
        flipVerticalWheel := d.flipVerticalWheel || vertical
        flipHorizontalWheel := d.flipHorizontalWheel || horizontal } := by
  cases x <;> cases y <;> cases vertical <;> cases horizontal <;> simp [setFlip]

omit [NlohmannJson] in
/-- The flags that the settings of `swap` set. -/
theorem foldl_setSwap (d : MouseBasicDefinition) (xy wheels : Bool) :
    [(xy, "xy"), (wheels, "wheels")].foldl
        (fun d setting => if setting.1 then setSwap d setting.2 else d) d =
      { d with swapXy := d.swapXy || xy, swapWheels := d.swapWheels || wheels } := by
  cases xy <;> cases wheels <;> simp [setSwap]

omit [NlohmannJson] in
/-- The flags that the settings of `discard` set. -/
theorem foldl_setDiscard (d : MouseBasicDefinition) (x y vertical horizontal : Bool) :
    [(x, "x"), (y, "y"), (vertical, "vertical_wheel"), (horizontal, "horizontal_wheel")].foldl
        (fun d setting => if setting.1 then setDiscard d setting.2 else d) d =
      { d with
        discardX := d.discardX || x
        discardY := d.discardY || y
        discardVerticalWheel := d.discardVerticalWheel || vertical
        discardHorizontalWheel := d.discardHorizontalWheel || horizontal } := by
  cases x <;> cases y <;> cases vertical <;> cases horizontal <;> simp [setDiscard]

/-- **The settings of a device arrive**, and there is no JSON when none is on. -/
theorem fromJson_deviceJson (device : Device) :
    (deviceJson device).map fromJson =
      if (ofDevice device).isOn then some (.ok (ofDevice device)) else none := by
  have hread (discard flip swap : List Json) : fromJson (.object [("discard", .array discard),
      ("flip", .array flip), ("swap", .array swap), ("type", .string "mouse_basic")]) =
        readItems setDiscard {} "discard" (.array discard) >>= fun d =>
          readItems setFlip d "flip" (.array flip) >>= fun d =>
            readItems setSwap d "swap" (.array swap) >>= fun d => .ok d := rfl
  cases hjson : deviceJson device with
  | none => rw [(deviceJson_eq_none_iff device).mp hjson]; rfl
  | some json =>
      have hon : (ofDevice device).isOn = true := by
        rw [← Bool.not_eq_false, ← deviceJson_eq_none_iff, hjson]
        exact Option.some_ne_none json
      rw [if_pos hon, Option.map_some]
      congr 1
      unfold deviceJson at hjson
      dsimp only at hjson
      split_ifs at hjson
      obtain rfl := Option.some.inj hjson
      rw [hread, readItems_items, JsonM.ok_bind, readItems_items, JsonM.ok_bind, readItems_items,
        JsonM.ok_bind, foldl_setDiscard, foldl_setFlip, foldl_setSwap]
      simp [ofDevice]

end MouseBasicDefinition

/-! ### The manipulator -/

/-- `mouse_basic`. -/
structure MouseBasic where
  definition : MouseBasicDefinition
  conditions : List Condition := []
  validity : Validity := .valid

/-- The entry that takes the place of a motion. -/
def MouseBasic.manipulatedEntry (m : MouseBasic) (front : Entry) (motion : PointingMotion) :
    Entry :=
  { front with
    event := .pointingMotion (m.definition.apply motion)
    state := .manipulated
    validity := .valid }

/-- `mouse_basic::manipulate`: the result, the front entry and the output queue. -/
def MouseBasic.manipulate [Exprtk] [SystemClock] (m : MouseBasic) (front : Entry)
    (output : Output) : ManipulateResult × Entry × Output :=
  if front.validity = .invalid then (.passed, front, output)
  else if m.validity = .invalid then (.passed, front, output)
  else
    let (fulfilled, env, w) :=
      isFulfilled m.conditions front output.queue.manipulatorEnvironment output.world
    let output := { queue := { output.queue with manipulatorEnvironment := env }, world := w }
    if !fulfilled then (.passed, front, output)
    else
      match front.event with
      | .pointingMotion motion =>
        if m.definition.isOn then
          (.manipulated, { front with validity := .invalid },
            output.emplaceBackEntry (m.manipulatedEntry front motion))
        else (.passed, front, output)
      | _ => (.passed, front, output)

end Karabiner
