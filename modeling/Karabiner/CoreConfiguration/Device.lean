import Karabiner.CoreConfiguration.DeviceIdentifiers
import Karabiner.CoreConfiguration.SimpleModifications
import Mathlib.Data.List.DropRight

/-!
# Device settings

`share/core_configuration/details/profile/device.hpp`: the settings of one device of a profile.  The
kind of the device replaces the default of two settings after the JSON has been read.  A device
without any setting writes nothing, not even its identifiers.

* `construct_toJson` — what a device writes makes a device again.
* `Blank`, `toJson_isEmpty_iff` — which devices write nothing.
-/

namespace Karabiner.CoreConfiguration

open JsonUtility

/-! ### Texts -/

/-- `std::isspace`. -/
def isSpace (c : Char) : Bool :=
  c = ' ' || c = '\t' || c = '\n' || c = '\x0b' || c = '\x0c' || c = '\r'

/-- `pqrs::string::trim_copy`. -/
def trimCopy (s : String) : String :=
  String.ofList ((s.toList.dropWhile isSpace).rdropWhile isSpace)

namespace Device

/-! ### The settings -/

/-- The settings, in the order in which the constructor adds them. -/
inductive Setting
  | ignore
  | manipulateCapsLockLed
  | ignoreVendorEvents
  | treatAsBuiltInKeyboard
  | disableBuiltInKeyboardIfExists
  | pointingMotionXyMultiplier
  | pointingMotionWheelsMultiplier
  | mouseFlipX
  | mouseFlipY
  | mouseFlipVerticalWheel
  | mouseFlipHorizontalWheel
  | mouseSwapXy
  | mouseSwapWheels
  | mouseDiscardX
  | mouseDiscardY
  | mouseDiscardVerticalWheel
  | mouseDiscardHorizontalWheel
  | gamePadSwapSticks
  | gamePadXyStickDeadzone
  | gamePadXyStickDeltaMagnitudeDetectionThreshold
  | gamePadXyStickContinuedMovementAbsoluteMagnitudeThreshold
  | gamePadXyStickContinuedMovementIntervalMilliseconds
  | gamePadWheelsStickDeadzone
  | gamePadWheelsStickDeltaMagnitudeDetectionThreshold
  | gamePadWheelsStickContinuedMovementAbsoluteMagnitudeThreshold
  | gamePadWheelsStickContinuedMovementIntervalMilliseconds
  | gamePadStickXFormula
  | gamePadStickYFormula
  | gamePadStickVerticalWheelFormula
  | gamePadStickHorizontalWheelFormula
deriving DecidableEq, Repr

namespace Setting

def key : Setting → String
  | ignore => "ignore"
  | manipulateCapsLockLed => "manipulate_caps_lock_led"
  | ignoreVendorEvents => "ignore_vendor_events"
  | treatAsBuiltInKeyboard => "treat_as_built_in_keyboard"
  | disableBuiltInKeyboardIfExists => "disable_built_in_keyboard_if_exists"
  | pointingMotionXyMultiplier => "pointing_motion_xy_multiplier"
  | pointingMotionWheelsMultiplier => "pointing_motion_wheels_multiplier"
  | mouseFlipX => "mouse_flip_x"
  | mouseFlipY => "mouse_flip_y"
  | mouseFlipVerticalWheel => "mouse_flip_vertical_wheel"
  | mouseFlipHorizontalWheel => "mouse_flip_horizontal_wheel"
  | mouseSwapXy => "mouse_swap_xy"
  | mouseSwapWheels => "mouse_swap_wheels"
  | mouseDiscardX => "mouse_discard_x"
  | mouseDiscardY => "mouse_discard_y"
  | mouseDiscardVerticalWheel => "mouse_discard_vertical_wheel"
  | mouseDiscardHorizontalWheel => "mouse_discard_horizontal_wheel"
  | gamePadSwapSticks => "game_pad_swap_sticks"
  | gamePadXyStickDeadzone => "game_pad_xy_stick_deadzone"
  | gamePadXyStickDeltaMagnitudeDetectionThreshold =>
    "game_pad_xy_stick_delta_magnitude_detection_threshold"
  | gamePadXyStickContinuedMovementAbsoluteMagnitudeThreshold =>
    "game_pad_xy_stick_continued_movement_absolute_magnitude_threshold"
  | gamePadXyStickContinuedMovementIntervalMilliseconds =>
    "game_pad_xy_stick_continued_movement_interval_milliseconds"
  | gamePadWheelsStickDeadzone => "game_pad_wheels_stick_deadzone"
  | gamePadWheelsStickDeltaMagnitudeDetectionThreshold =>
    "game_pad_wheels_stick_delta_magnitude_detection_threshold"
  | gamePadWheelsStickContinuedMovementAbsoluteMagnitudeThreshold =>
    "game_pad_wheels_stick_continued_movement_absolute_magnitude_threshold"
  | gamePadWheelsStickContinuedMovementIntervalMilliseconds =>
    "game_pad_wheels_stick_continued_movement_interval_milliseconds"
  | gamePadStickXFormula => "game_pad_stick_x_formula"
  | gamePadStickYFormula => "game_pad_stick_y_formula"
  | gamePadStickVerticalWheelFormula => "game_pad_stick_vertical_wheel_formula"
  | gamePadStickHorizontalWheelFormula => "game_pad_stick_horizontal_wheel_formula"

@[reducible] def type : Setting → SettingType
  | pointingMotionXyMultiplier
  | pointingMotionWheelsMultiplier
  | gamePadXyStickDeadzone
  | gamePadXyStickDeltaMagnitudeDetectionThreshold
  | gamePadXyStickContinuedMovementAbsoluteMagnitudeThreshold
  | gamePadWheelsStickDeadzone
  | gamePadWheelsStickDeltaMagnitudeDetectionThreshold
  | gamePadWheelsStickContinuedMovementAbsoluteMagnitudeThreshold => .double
  | gamePadXyStickContinuedMovementIntervalMilliseconds
  | gamePadWheelsStickContinuedMovementIntervalMilliseconds => .integer
  | gamePadStickXFormula
  | gamePadStickYFormula
  | gamePadStickVerticalWheelFormula
  | gamePadStickHorizontalWheelFormula => .string
  | _ => .boolean

/-- The default formula of the sticks, with the function that projects the magnitude. -/
def stickFormula (projection : String) : String :=
  "\n\nvar m:= 0;\n\n" ++
  "if (continued_movement == false) \x7b\n  m := delta_magnitude * 16;\n" ++
  "\x7d else if (absolute_magnitude < 1.5) \x7b\n  m := absolute_magnitude * 8;\n" ++
  "\x7d else if (absolute_magnitude < 2) \x7b\n  m := absolute_magnitude * 12;\n" ++
  "\x7d else \x7b\n  m := absolute_magnitude * 24;\n\x7d;\n\n" ++
  projection ++ "(radian) * m;\n\n"

/-- The default formula of the wheels. -/
def wheelFormula (comparison projection : String) : String :=
  "\n\nvar m := 0;\n\n" ++
  "if (abs(cos(radian)) " ++ comparison ++ " abs(sin(radian))) \x7b\n" ++
  "  if (continued_movement == false) \x7b\n    m := delta_magnitude;\n" ++
  "  \x7d else \x7b\n    m := absolute_magnitude * 0.1;\n  \x7d;\n\x7d;\n\n" ++
  projection ++ "(radian) * m;\n\n"

def default : (s : Setting) → s.type.Carrier
  | ignore => false
  | manipulateCapsLockLed => false
  | ignoreVendorEvents => false
  | treatAsBuiltInKeyboard => false
  | disableBuiltInKeyboardIfExists => false
  | pointingMotionXyMultiplier => (1 : ℚ)
  | pointingMotionWheelsMultiplier => (1 : ℚ)
  | mouseFlipX => false
  | mouseFlipY => false
  | mouseFlipVerticalWheel => false
  | mouseFlipHorizontalWheel => false
  | mouseSwapXy => false
  | mouseSwapWheels => false
  | mouseDiscardX => false
  | mouseDiscardY => false
  | mouseDiscardVerticalWheel => false
  | mouseDiscardHorizontalWheel => false
  | gamePadSwapSticks => false
  | gamePadXyStickDeadzone => (1 / 10 : ℚ)
  | gamePadXyStickDeltaMagnitudeDetectionThreshold => (1 / 50 : ℚ)
  | gamePadXyStickContinuedMovementAbsoluteMagnitudeThreshold => (1 : ℚ)
  | gamePadXyStickContinuedMovementIntervalMilliseconds => (20 : Int32)
  | gamePadWheelsStickDeadzone => (1 / 10 : ℚ)
  | gamePadWheelsStickDeltaMagnitudeDetectionThreshold => (1 / 50 : ℚ)
  | gamePadWheelsStickContinuedMovementAbsoluteMagnitudeThreshold => (1 : ℚ)
  | gamePadWheelsStickContinuedMovementIntervalMilliseconds => (10 : Int32)
  | gamePadStickXFormula => trimCopy (stickFormula "cos")
  | gamePadStickYFormula => trimCopy (stickFormula "sin")
  | gamePadStickVerticalWheelFormula => trimCopy (wheelFormula "<" "sin")
  | gamePadStickHorizontalWheelFormula => trimCopy (wheelFormula ">" "cos")

def all : List Setting := [
  ignore, manipulateCapsLockLed, ignoreVendorEvents, treatAsBuiltInKeyboard,
  disableBuiltInKeyboardIfExists, pointingMotionXyMultiplier, pointingMotionWheelsMultiplier,
  mouseFlipX, mouseFlipY, mouseFlipVerticalWheel, mouseFlipHorizontalWheel, mouseSwapXy,
  mouseSwapWheels, mouseDiscardX, mouseDiscardY, mouseDiscardVerticalWheel,
  mouseDiscardHorizontalWheel, gamePadSwapSticks, gamePadXyStickDeadzone,
  gamePadXyStickDeltaMagnitudeDetectionThreshold,
  gamePadXyStickContinuedMovementAbsoluteMagnitudeThreshold,
  gamePadXyStickContinuedMovementIntervalMilliseconds, gamePadWheelsStickDeadzone,
  gamePadWheelsStickDeltaMagnitudeDetectionThreshold,
  gamePadWheelsStickContinuedMovementAbsoluteMagnitudeThreshold,
  gamePadWheelsStickContinuedMovementIntervalMilliseconds, gamePadStickXFormula,
  gamePadStickYFormula, gamePadStickVerticalWheelFormula, gamePadStickHorizontalWheelFormula]

instance : SettingFamily Setting where
  key := key
  type := type
  default := default
  all := all
  mem_all := by
    intro s
    cases s <;> decide
  nodup_keys := by decide

end Setting

/-- `make_default_fn_function_keys_json`. -/
def makeDefaultFnFunctionKeysJson : List Json :=
  ((List.range 12).map fun i =>
    (.object [("key_code", .string ("f" ++ toString (i + 1)))], .object [])).map
      SimpleModifications.pairJson

end Device

/-- `device`. -/
structure Device where
  members : Json.Members
  identifiers : DeviceIdentifiers
  values : HelperValues Device.Setting
  simpleModifications : SimpleModifications
  fnFunctionKeys : SimpleModifications

namespace Device

/-- `coordinate_between_properties`. -/
def coordinateBetweenProperties (d : Device) : Device :=
  if (d.values .treatAsBuiltInKeyboard).value && (d.values .disableBuiltInKeyboardIfExists).value
  then { d with values := d.values.setValue .disableBuiltInKeyboardIfExists false }
  else d

/-- The devices that are ignored by default. -/
def isIgnoredByDefault (identifiers : DeviceIdentifiers) : Bool :=
  identifiers.isPointingDevice || identifiers.isGamePad || identifiers.isConsumer ||
    -- YubiKey token
    identifiers.vendorId = 0x1050

/-- The defaults for specific devices. -/
def setSpecialDefaultValues (identifiers : DeviceIdentifiers) (values : HelperValues Setting) :
    HelperValues Setting :=
  let values :=
    if isIgnoredByDefault identifiers then values.setDefaultValue .ignore true else values
  if identifiers.isKeyboard then values.setDefaultValue .manipulateCapsLockLed true else values

section

variable [NlohmannJson] [NaturalSort]

/-! ### Reading and writing -/

/-- The constructor from JSON.  It takes the members that are no settings in the order of their
keys. -/
def construct (errorHandling : ErrorHandling) (json : Json) : JsonM Device := do
  let fnFunctionKeys ←
    (SimpleModifications.update (.array makeDefaultFnFunctionKeysJson) {}).result
  let members ← requiresObject json "json"
  let values ← HelperValues.updateValue errorHandling members .make
  let fnFunctionKeys ←
    updateObject "fn_function_keys" (fun json => (fnFunctionKeys.update json).result) members
      fnFunctionKeys
  let identifiers ← updateObject "identifiers" DeviceIdentifiers.fromJson members {}
  let simpleModifications ←
    updateObject "simple_modifications" (fun json => (SimpleModifications.update json {}).result)
      members {}
  return coordinateBetweenProperties
    { members, identifiers, values := setSpecialDefaultValues identifiers values,
      simpleModifications, fnFunctionKeys }

omit [NaturalSort] in
/-- What `to_json` puts under each key. -/
def entries (d : Device) : List (String × Option Json) :=
  d.values.entries ++ [
    ("identifiers", some d.identifiers.toJson),
    ("simple_modifications", savedObject (d.simpleModifications.toJson [])),
    ("fn_function_keys", savedObject (d.fnFunctionKeys.toJson makeDefaultFnFunctionKeysJson))]

omit [NaturalSort] in
/-- The members of `to_json`, with the identifiers. -/
def allMembers (d : Device) : Json.Members := Json.putAll d.entries d.members

omit [NaturalSort] in
/-- The members of `to_json`: the identifiers are added only if there is another setting. -/
def toMembers (d : Device) : Json.Members :=
  if d.allMembers.length = 1 then Json.erase "identifiers" d.allMembers else d.allMembers

omit [NaturalSort] in
/-- `to_json`. -/
def toJson (d : Device) : Json := .object d.toMembers

/-! ### Editing -/

/-- A setter.  The formulas are trimmed. -/
def set (s : Setting) (value : s.type.Carrier) (d : Device) : Device :=
  let trimmed : s.type.Carrier :=
    match s.type, value with
    | .string, value => trimCopy value
    | .boolean, value => value
    | .integer, value => value
    | .milliseconds, value => value
    | .double, value => value
  coordinateBetweenProperties { d with values := d.values.setValue s trimmed }

end

/-- A call that changes the settings of a device. -/
inductive Edit
  | set (s : Setting) (value : s.type.Carrier)
  | simpleModifications (edit : SimpleModifications.Edit)
  | fnFunctionKeys (edit : SimpleModifications.Edit)

section

variable [NlohmannJson]

/-- The effect of a call. -/
def Edit.apply [NaturalSort] (d : Device) : Edit → Device
  | set s value => d.set s value
  | simpleModifications edit =>
    { d with simpleModifications := edit.apply d.simpleModifications }
  | fnFunctionKeys edit => { d with fnFunctionKeys := edit.apply d.fnFunctionKeys }

/-! ### What is written makes a device -/

omit [NlohmannJson] in
/-- The keys of all members that a device knows. -/
def knownKeys : List String :=
  Setting.all.map Setting.key ++ ["identifiers", "simple_modifications", "fn_function_keys"]

theorem keys_entries (d : Device) : d.entries.map Prod.fst = knownKeys := by
  rw [entries, List.map_append, HelperValues.keys_entries]
  rfl

omit [NlohmannJson] in
theorem nodup_knownKeys : knownKeys.Nodup := by decide

theorem nodup_keys (d : Device) : (d.entries.map Prod.fst).Nodup :=
  d.keys_entries ▸ nodup_knownKeys

omit [NlohmannJson] in
theorem key_ne_identifiers (s : Setting) : SettingFamily.key s ≠ "identifiers" := by
  cases s <;> decide

/-- Every member but the identifiers is found as it was put. -/
theorem lookup_toMembers {d : Device} {key : String} {value : Option Json}
    (hkey : key ≠ "identifiers") (hentry : (key, value) ∈ d.entries) :
    d.toMembers.lookup key = value := by
  have hlookup : d.allMembers.lookup key = value :=
    Json.lookup_putAll d.nodup_keys hentry d.members
  unfold toMembers
  split_ifs
  · rw [Json.lookup_erase_of_ne hkey, hlookup]
  · exact hlookup

/-- The identifiers are written, or left out. -/
theorem lookup_toMembers_identifiers (d : Device) :
    d.toMembers.lookup "identifiers" = some d.identifiers.toJson ∨
      d.toMembers.lookup "identifiers" = none := by
  unfold toMembers
  split_ifs
  · exact .inr (Json.lookup_erase_self _ _)
  · exact .inl (Json.lookup_putAll d.nodup_keys (by simp [entries]) d.members)

variable [NaturalSort]

omit [NaturalSort] in
/-- Modifications that were saved can be read. -/
theorem updateObject_modifications [NaturalSort] {key : String} {members : Json.Members}
    {defaultJson : List Json} {saved : SimpleModifications}
    (hsaved : members.lookup key = savedObject (saved.toJson defaultJson))
    (m : SimpleModifications) :
    ∃ reloaded, updateObject key (fun json => (m.update json).result) members m = .ok reloaded :=
  ⟨_, updateObject_saved hsaved
    (Update.result_eq_ok (SimpleModifications.error_update_toJson defaultJson saved m)) m⟩

/-- What is read from what was saved, with whatever identifiers. -/
theorem construct_of_saved (errorHandling : ErrorHandling) {d : Device} {members : Json.Members}
    {identifiers : DeviceIdentifiers}
    (hvalues : ∀ s, members.lookup (SettingFamily.key s) = (d.values s).saved)
    (hidentifiers :
      updateObject "identifiers" DeviceIdentifiers.fromJson members {} = .ok identifiers)
    (hsimple : members.lookup "simple_modifications" =
      savedObject (d.simpleModifications.toJson []))
    (hfn : members.lookup "fn_function_keys" =
      savedObject (d.fnFunctionKeys.toJson makeDefaultFnFunctionKeysJson)) :
    ∃ simpleModifications fnFunctionKeys, construct errorHandling (.object members) =
      .ok (coordinateBetweenProperties
        { members, identifiers, simpleModifications, fnFunctionKeys
          values := setSpecialDefaultValues identifiers
            fun s => (d.values s).reload (.make (SettingFamily.default s)) }) := by
  have hdefault : (SimpleModifications.update (.array makeDefaultFnFunctionKeysJson) {}).error =
      none := by
    refine SimpleModifications.error_update_array (fun pair hpair => ?_) {}
    obtain ⟨i, -, rfl⟩ := List.mem_map.mp hpair
    exact ⟨_, rfl⟩
  have hvalues := HelperValues.updateValue_saved errorHandling d.values hvalues .make
  obtain ⟨fnFunctionKeys, hfn⟩ := updateObject_modifications hfn
    (SimpleModifications.update (.array makeDefaultFnFunctionKeysJson) {}).value
  obtain ⟨simpleModifications, hsimple⟩ := updateObject_modifications hsimple {}
  simp only [construct, requiresObject, Update.result_eq_ok hdefault, JsonM.ok_bind, hvalues,
    hfn, hidentifiers, hsimple]
  exact ⟨_, _, rfl⟩

/-- **What a device writes makes a device again.** -/
theorem construct_toJson (errorHandling : ErrorHandling) (d : Device) :
    ∃ reloaded, construct errorHandling d.toJson = .ok reloaded := by
  obtain ⟨identifiers, hidentifiers⟩ : ∃ identifiers,
      updateObject "identifiers" DeviceIdentifiers.fromJson d.toMembers {} = .ok identifiers := by
    rcases d.lookup_toMembers_identifiers with hlookup | hlookup
    · simp [updateObject, hlookup, DeviceIdentifiers.fromJson_toJson]
    · simp [updateObject, hlookup]
  obtain ⟨_, _, hconstruct⟩ := construct_of_saved errorHandling
    (fun s => lookup_toMembers (key_ne_identifiers s)
      (List.mem_append_left _ (HelperValues.mem_entries d.values s))) hidentifiers
    (lookup_toMembers (by decide) (List.mem_append_right _ (by simp)))
    (lookup_toMembers (by decide) (List.mem_append_right _ (by simp)))
  exact ⟨_, hconstruct⟩

/-! ### Devices that write nothing -/

/-- Nothing is saved for any setting, and the JSON had no member that is not known. -/
structure Blank (d : Device) : Prop where
  values : ∀ s, (d.values s).value = (d.values s).defaultValue
  simpleModifications : d.simpleModifications.Unsaved []
  fnFunctionKeys : d.fnFunctionKeys.Unsaved makeDefaultFnFunctionKeysJson
  members : ∀ m ∈ d.members, m.1 ∈ knownKeys

omit [NaturalSort] in
theorem toMembers_eq_nil_iff {d : Device} : d.toMembers = [] ↔ d.Blank := by
  have hlength := Json.length_eq_count_add_length_erase "identifiers" d.allMembers
  rw [allMembers, Json.count_putAll d.nodup_keys (by simp [entries] :
    ("identifiers", some d.identifiers.toJson) ∈ d.entries), ← allMembers] at hlength
  -- One member is left exactly when it is the identifiers.
  have herase : d.toMembers = [] ↔ ∀ m ∈ d.allMembers, m.1 = "identifiers" := by
    have hnil : Json.erase "identifiers" d.allMembers = [] ↔
        ∀ m ∈ d.allMembers, m.1 = "identifiers" := by
      simp [Json.erase, List.filter_eq_nil_iff]
    rw [← hnil, ← List.length_eq_zero_iff, ← List.length_eq_zero_iff, toMembers]
    split_ifs with hone
    · rfl
    · omega
  have hentries : (∀ entry ∈ d.entries, entry.1 = "identifiers" ∨ entry.2 = none) ↔
      (∀ s, (d.values s).value = (d.values s).defaultValue) ∧
        d.simpleModifications.Unsaved [] ∧
        d.fnFunctionKeys.Unsaved makeDefaultFnFunctionKeysJson := by
    have hvalues : (∀ entry ∈ d.values.entries, entry.1 = "identifiers" ∨ entry.2 = none) ↔
        ∀ s, (d.values s).value = (d.values s).defaultValue := by
      rw [← HelperValues.entries_eq_none_iff]
      refine forall₂_congr fun entry hentry => or_iff_right fun hkey => ?_
      obtain ⟨s, -, rfl⟩ := List.mem_map.mp hentry
      exact key_ne_identifiers s hkey
    rw [entries, List.forall_mem_append, hvalues]
    simp [SimpleModifications.toJson_isEmpty_iff]
  have hmembers : (∀ m ∈ d.members, m.1 = "identifiers" ∨ m.1 ∈ knownKeys) ↔
      ∀ m ∈ d.members, m.1 ∈ knownKeys := by
    refine forall₂_congr fun m _ => or_iff_right_of_imp fun hkey => ?_
    rw [hkey]
    decide
  rw [herase, allMembers, Json.forall_mem_putAll_iff d.nodup_keys (· = "identifiers"),
    d.keys_entries, hentries, hmembers]
  constructor
  · rintro ⟨⟨hvalues, hsimple, hfn⟩, h⟩
    exact ⟨hvalues, hsimple, hfn, h⟩
  · intro h
    exact ⟨⟨h.values, h.simpleModifications, h.fnFunctionKeys⟩, h.members⟩

omit [NaturalSort] in
theorem toJson_isEmpty_iff {d : Device} : d.toJson.isEmpty ↔ d.Blank := by
  rw [← toMembers_eq_nil_iff, toJson, Json.isEmpty, List.isEmpty_iff]

end

end Device

end Karabiner.CoreConfiguration
