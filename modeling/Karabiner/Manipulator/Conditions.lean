import Karabiner.CoreConfiguration.Profile.GetDevice
import Karabiner.Devices.DeviceProperties
import Karabiner.Manipulator.CachedConditions
import Karabiner.Manipulator.ConditionFactory

/-!
# What the conditions say

`is_fulfilled` of the classes of `share/manipulator/conditions`, `device_utility.hpp` and the
conditions that `condition_factory.hpp` makes for the grabber itself.  `ConditionDefinition` has the
members of a condition; here it gets its meaning as a `Condition`.  The classes that keep their last
result say what they say without it (`conditionCaches_transparent`).

* `isFulfilled_negated_iff` — **when the negated type of a condition is its negation**: not for
  `event_changed` at an entry that is neither original nor manipulated, and not for an expression
  without a value.  There both types say the same.
* `isFulfilled_makeDeviceIfCondition` — **what `make_device_if_condition` asks for**: four fields of
  the identifiers, so that devices which differ in another field share their settings.
-/

namespace Karabiner

open Devices JsonUtility
open CoreConfiguration (DeviceIdentifiers NaturalSort)

/-- What the shared pointers of an environment point to. -/
class SharedPointers where
  deviceProperties : DevicePropertiesPtr → Devices.DeviceProperties
  coreConfiguration : ℕ → CoreConfiguration

/-- The other type of a class. -/
def ConditionType.negated : ConditionType → ConditionType
  | .if_ => .unless
  | .unless => .if_

theorem says_negated (type : ConditionType) (p : Prop) : type.negated.Says p ↔ ¬type.Says p := by
  cases type
  · exact Iff.rfl
  · exact not_not.symm

theorem eq_not_of_agrees {type : ConditionType} {p : Prop} {a b : Bool}
    (ha : a = true ↔ type.negated.Says p) (hb : b = true ↔ type.Says p) : a = !b := by
  have hab : a = true ↔ ¬b = true := ha.trans ((says_negated type p).trans hb.not.symm)
  cases b with
  | true => exact Bool.eq_false_iff.mpr fun h => hab.mp h rfl
  | false => exact hab.mpr Bool.false_ne_true

/-! ### Devices -/

/-- The result of a type for which a device is found. -/
def DeviceConditionType.found : DeviceConditionType → Bool
  | .deviceIf | .deviceExistsIf => true
  | .deviceUnless | .deviceExistsUnless => false

/-- The other type that looks at the same devices. -/
def DeviceConditionType.negated : DeviceConditionType → DeviceConditionType
  | .deviceIf => .deviceUnless
  | .deviceUnless => .deviceIf
  | .deviceExistsIf => .deviceExistsUnless
  | .deviceExistsUnless => .deviceExistsIf

section

variable [NlohmannJson] [NaturalSort]

/-- A setting of a device in the selected profile. -/
def CoreConfiguration.deviceSetting (c : CoreConfiguration) (identifiers : DeviceIdentifiers)
    (s : CoreConfiguration.Device.Setting) : s.type.Carrier :=
  match c.getSelectedProfile with
  | some (_, profile) => profile.deviceSetting identifiers s
  | none => s.default

/-- `device_utility::determine_is_built_in_keyboard`. -/
def determineIsBuiltInKeyboard (c : CoreConfiguration) (p : Devices.DeviceProperties) : Bool :=
  p.isBuiltInKeyboard || c.deviceSetting p.deviceIdentifiers .treatAsBuiltInKeyboard

namespace DeviceConditionDefinition

/-- A field that is given has that value. -/
def fieldFulfilled {α : Type} [DecidableEq α] (field : Option α) (value : α) : Bool :=
  match field with
  | some v => v = value
  | none => true

/-- `fulfilled`. -/
def fulfilled (d : DeviceConditionDefinition) (p : Devices.DeviceProperties)
    (c : CoreConfiguration) : Bool :=
  fieldFulfilled (d.vendorId.map UInt64.ofNat) p.deviceIdentifiers.vendorId &&
    fieldFulfilled (d.productId.map UInt64.ofNat) p.deviceIdentifiers.productId &&
    fieldFulfilled (d.locationId.map UInt64.ofInt) p.locationId &&
    fieldFulfilled d.deviceAddress p.deviceIdentifiers.deviceAddress &&
    fieldFulfilled d.isKeyboard p.deviceIdentifiers.isKeyboard &&
    fieldFulfilled d.isPointingDevice p.deviceIdentifiers.isPointingDevice &&
    fieldFulfilled d.isGamePad p.deviceIdentifiers.isGamePad &&
    fieldFulfilled d.isConsumer p.deviceIdentifiers.isConsumer &&
    fieldFulfilled d.isTouchBar p.isBuiltInTouchBar &&
    fieldFulfilled d.isBuiltInKeyboard (determineIsBuiltInKeyboard c p)

end DeviceConditionDefinition

variable [SharedPointers]

omit [NlohmannJson] [NaturalSort] in
/-- `find_device_properties`. -/
def ManipulatorEnvironment.findDeviceProperties (env : ManipulatorEnvironment)
    (deviceId : DeviceId) : Option Devices.DeviceProperties :=
  (env.deviceProperties.lookup deviceId).map SharedPointers.deviceProperties

omit [NlohmannJson] [NaturalSort] in
/-- `get_core_configuration`. -/
def ManipulatorEnvironment.getCoreConfiguration (env : ManipulatorEnvironment) :
    CoreConfiguration :=
  SharedPointers.coreConfiguration env.coreConfiguration

omit [NlohmannJson] [NaturalSort] in
/-- The devices that a type looks at: the device of the entry, or all in the order of the map. -/
def DeviceConditionType.candidates (type : DeviceConditionType) (entry : Entry)
    (env : ManipulatorEnvironment) : List Devices.DeviceProperties :=
  match type with
  | .deviceIf | .deviceUnless => (env.findDeviceProperties entry.deviceId).toList
  | .deviceExistsIf | .deviceExistsUnless =>
    env.deviceProperties.entries.map fun p => SharedPointers.deviceProperties p.2

/-- `conditions::device::is_fulfilled`.  Both loops are left at the first definition that is
fulfilled. -/
def deviceIsFulfilled (type : DeviceConditionType) (definitions : List DeviceConditionDefinition)
    (entry : Entry) (env : ManipulatorEnvironment) : Bool :=
  if definitions.isEmpty then !type.found
  else
    match (type.candidates entry env).find? fun p =>
      definitions.any fun d => d.fulfilled p env.getCoreConfiguration with
    | some _ => type.found
    | none => !type.found

theorem deviceIsFulfilled_negated (type : DeviceConditionType)
    (definitions : List DeviceConditionDefinition) (entry : Entry) (env : ManipulatorEnvironment) :
    deviceIsFulfilled type.negated definitions entry env =
      !deviceIsFulfilled type definitions entry env := by
  have hfound : type.negated.found = !type.found := by cases type <;> rfl
  have hcandidates : type.negated.candidates entry env = type.candidates entry env := by
    cases type <;> rfl
  unfold deviceIsFulfilled
  rw [hfound, hcandidates]
  split_ifs
  · rfl
  · split <;> rfl

end

/-! ### The other classes -/

/-- `conditions::event_changed::is_fulfilled`. -/
def eventChangedIsFulfilled (type : ConditionType) (value : Bool) (entry : Entry) : Bool :=
  match type, value with
  | .if_, true => entry.state = .manipulated
  | .if_, false => entry.state ≠ .manipulated
  | .unless, true => entry.state = .original
  | .unless, false => entry.state ≠ .original

section

variable [SharedPointers]

/-- `conditions::keyboard_type::is_fulfilled`. -/
def keyboardTypeIsFulfilled (type : ConditionType) (keyboardTypes : List String)
    (env : ManipulatorEnvironment) : Bool :=
  let current : String :=
    match env.getCoreConfiguration.getSelectedProfile with
    | some (_, profile) => (profile.virtualHidKeyboard.values .keyboardTypeV2).value
    | none => ""
  (searchAny type (fun t => t = current) keyboardTypes).getD type.notFound

theorem keyboardTypeIsFulfilled_negated (type : ConditionType) (keyboardTypes : List String)
    (env : ManipulatorEnvironment) :
    keyboardTypeIsFulfilled type.negated keyboardTypes env =
      !keyboardTypeIsFulfilled type keyboardTypes env := by
  unfold keyboardTypeIsFulfilled
  dsimp only
  rw [searchAny_eq, searchAny_eq]
  split_ifs <;> cases type <;> rfl

end

/-! ### Negations -/

namespace ConditionDefinition

/-- The same condition with the other type. -/
def negated : ConditionDefinition → ConditionDefinition
  | .device type definitions => .device type.negated definitions
  | .eventChanged type value => .eventChanged type.negated value
  | .expression type e => .expression type.negated e
  | .frontmostApplication type bundleIdentifiers filePaths =>
    .frontmostApplication type.negated bundleIdentifiers filePaths
  | .inputSource type specifiers => .inputSource type.negated specifiers
  | .variable type name value => .variable type.negated name value
  | .keyboardType type keyboardTypes => .keyboardType type.negated keyboardTypes

/-- One of the two types of the condition is fulfilled, and the other is not: an entry that is
neither original nor manipulated is no answer to `event_changed`, and neither is an expression
without a value. -/
def Answers [Exprtk] (d : ConditionDefinition) (entry : Entry) (w : World) : Prop :=
  match d with
  | .eventChanged _ _ => entry.state ≠ .virtualEvent
  | .expression _ e => ∃ wrapper, e = some wrapper ∧ Exprtk.isNan (w.value wrapper) = false
  | _ => True

/-- What both types of the condition say where it is no answer: both types of `event_changed` are
fulfilled if the value is false. -/
def unanswered : ConditionDefinition → Bool
  | .eventChanged _ value => !value
  | _ => false

variable [NlohmannJson] [NaturalSort] [SharedPointers] [RegexSearch] [Exprtk]

/-- The condition that a definition makes. -/
def condition : ConditionDefinition → Condition
  | .device type definitions => .other (deviceIsFulfilled type definitions)
  | .eventChanged type value => .other fun entry _ => eventChangedIsFulfilled type value entry
  | .expression type e => .expression type e
  | .frontmostApplication type bundleIdentifiers filePaths =>
    .other fun _ env => FrontmostApplicationCondition.evaluate
      ⟨type, bundleIdentifiers, filePaths⟩ env.frontmostApplication
  | .inputSource type specifiers =>
    .other fun _ env => InputSourceCondition.evaluate ⟨type, specifiers⟩ env.inputSourceProperties
  | .variable type name value => .variable type name value
  | .keyboardType type keyboardTypes =>
    .other fun _ env => keyboardTypeIsFulfilled type keyboardTypes env

/-- **When the negated type of a condition is its negation**, and what both types say otherwise. -/
theorem isFulfilled_negated_iff (d : ConditionDefinition) (entry : Entry)
    (env : ManipulatorEnvironment) (w : World) :
    (d.negated.condition.isFulfilled entry env w = !d.condition.isFulfilled entry env w ↔
      d.Answers entry w) ∧
    (d.Answers entry w ∨ d.condition.isFulfilled entry env w = d.unanswered ∧
      d.negated.condition.isFulfilled entry env w = d.unanswered) := by
  have always {d : ConditionDefinition} (hanswers : d.Answers entry w)
      (h : d.negated.condition.isFulfilled entry env w = !d.condition.isFulfilled entry env w) :
      (d.negated.condition.isFulfilled entry env w = !d.condition.isFulfilled entry env w ↔
        d.Answers entry w) ∧
      (d.Answers entry w ∨ d.condition.isFulfilled entry env w = d.unanswered ∧
        d.negated.condition.isFulfilled entry env w = d.unanswered) :=
    ⟨iff_of_true h hanswers, .inl hanswers⟩
  cases d with
  | device type definitions =>
      exact always trivial (deviceIsFulfilled_negated type definitions entry env)
  | eventChanged type value =>
      change (eventChangedIsFulfilled type.negated value entry =
          (!eventChangedIsFulfilled type value entry) ↔ entry.state ≠ .virtualEvent) ∧
        (entry.state ≠ .virtualEvent ∨ eventChangedIsFulfilled type value entry = (!value) ∧
          eventChangedIsFulfilled type.negated value entry = (!value))
      unfold eventChangedIsFulfilled
      cases type <;> cases value <;> cases entry.state <;> decide
  | expression type e =>
      cases e with
      | none =>
          have hanswers : ¬ Answers (.expression type none) entry w := by
            rintro ⟨_, h, -⟩
            cases h
          exact ⟨iff_of_false Bool.false_ne_true hanswers, .inr ⟨rfl, rfl⟩⟩
      | some wrapper =>
          have hanswers : Answers (.expression type (some wrapper)) entry w ↔
              Exprtk.isNan (w.value wrapper) = false := by simp [Answers]
          rw [hanswers]
          cases hnan : Exprtk.isNan (w.value wrapper) <;> cases type <;>
            simp [negated, condition, ConditionType.negated, Condition.isFulfilled, hnan,
              unanswered]
  | frontmostApplication type bundleIdentifiers filePaths =>
      have hnegated := FrontmostApplicationCondition.evaluate_iff
        ⟨type.negated, bundleIdentifiers, filePaths⟩ env.frontmostApplication
      have hsays := FrontmostApplicationCondition.evaluate_iff
        ⟨type, bundleIdentifiers, filePaths⟩ env.frontmostApplication
      exact always trivial (eq_not_of_agrees hnegated hsays)
  | inputSource type specifiers =>
      have hnegated := InputSourceCondition.evaluate_iff ⟨type.negated, specifiers⟩
        env.inputSourceProperties
      have hsays := InputSourceCondition.evaluate_iff ⟨type, specifiers⟩ env.inputSourceProperties
      exact always trivial (eq_not_of_agrees hnegated hsays)
  | «variable» type name value =>
      refine always trivial ?_
      cases type <;> simp [negated, condition, ConditionType.negated, Condition.isFulfilled]
  | keyboardType type keyboardTypes =>
      exact always trivial (keyboardTypeIsFulfilled_negated type keyboardTypes env)

end ConditionDefinition

/-! ### The conditions that the grabber makes -/

/-- The definition that `make_device_if_condition` makes. -/
def sameKindDefinition (identifiers : DeviceIdentifiers) : DeviceConditionDefinition where
  vendorId := some identifiers.vendorId.toNat
  productId := some identifiers.productId.toNat
  isKeyboard := some identifiers.isKeyboard
  isPointingDevice := some identifiers.isPointingDevice

section

variable [NlohmannJson]

/-- `make_device_if_condition`, for the identifiers of the settings of a device. -/
def makeDeviceIfCondition (identifiers : DeviceIdentifiers) : JsonM ConditionDefinition :=
  ConditionFactory.makeDevice (.object [
    ("identifiers", .array [.object [
      ("is_keyboard", .boolean identifiers.isKeyboard),
      ("is_pointing_device", .boolean identifiers.isPointingDevice),
      ("product_id", .integer identifiers.productId.toNat),
      ("vendor_id", .integer identifiers.vendorId.toNat)]]),
    ("type", .string "device_if")])

/-- `make_device_unless_touch_bar_condition`. -/
def makeDeviceUnlessTouchBarCondition : JsonM ConditionDefinition :=
  ConditionFactory.makeDevice (.object [
    ("identifiers", .array [.object [("is_touch_bar", .boolean true)]]),
    ("type", .string "device_unless")])

/-- `make_event_changed_if_condition`. -/
def makeEventChangedIfCondition (value : Bool) : JsonM ConditionDefinition :=
  ConditionFactory.makeEventChanged
    (.object [("type", .string "event_changed_if"), ("value", .boolean value)])

theorem makeDeviceIfCondition_eq (identifiers : DeviceIdentifiers) :
    makeDeviceIfCondition identifiers =
      .ok (.device .deviceIf [sameKindDefinition identifiers]) := by
  have hid (id : UInt64) (name : String) :
      requiresNumber (Json.toNat 64) (.integer id.toNat) name = .ok id.toNat :=
    requiresNumber_eq_ok.mpr (Json.toNat_integer id.toNat_lt)
  simp [makeDeviceIfCondition, ConditionFactory.makeDevice, ConditionFactory.handleIdentifiersJson,
    ConditionFactory.readIdentifier, ConditionFactory.readDeviceType, requiresObject,
    requiresArray, requiresBoolean, requiresString, hid, DeviceConditionDefinition.valid,
    sameKindDefinition]

end

/-- The four fields that `make_device_if_condition` looks at agree. -/
structure SameKind (identifiers other : DeviceIdentifiers) : Prop where
  vendorId : identifiers.vendorId = other.vendorId
  productId : identifiers.productId = other.productId
  isKeyboard : identifiers.isKeyboard = other.isKeyboard
  isPointingDevice : identifiers.isPointingDevice = other.isPointingDevice

instance (identifiers other : DeviceIdentifiers) : Decidable (SameKind identifiers other) :=
  decidable_of_iff (identifiers.vendorId = other.vendorId ∧
      identifiers.productId = other.productId ∧
      identifiers.isKeyboard = other.isKeyboard ∧
      identifiers.isPointingDevice = other.isPointingDevice)
    ⟨fun h => ⟨h.1, h.2.1, h.2.2.1, h.2.2.2⟩, fun h => ⟨h.1, h.2, h.3, h.4⟩⟩

variable [NlohmannJson] [NaturalSort]

theorem fulfilled_sameKindDefinition (identifiers : DeviceIdentifiers)
    (p : Devices.DeviceProperties) (c : CoreConfiguration) :
    (sameKindDefinition identifiers).fulfilled p c = true ↔
      SameKind identifiers p.deviceIdentifiers := by
  constructor
  · intro h
    simp only [sameKindDefinition, DeviceConditionDefinition.fulfilled,
      DeviceConditionDefinition.fieldFulfilled, Option.map_some, Option.map_none,
      UInt64.ofNat_toNat, Bool.and_true, Bool.and_eq_true, decide_eq_true_eq] at h
    obtain ⟨⟨⟨hvendor, hproduct⟩, hkeyboard⟩, hpointing⟩ := h
    exact ⟨hvendor, hproduct, hkeyboard, hpointing⟩
  · intro h
    simp [sameKindDefinition, DeviceConditionDefinition.fulfilled,
      DeviceConditionDefinition.fieldFulfilled, h.vendorId, h.productId, h.isKeyboard,
      h.isPointingDevice]

variable [SharedPointers] [RegexSearch] [Exprtk]

/-- **What `make_device_if_condition` asks for**: the device of the entry is known, and four fields
of its identifiers are those of the settings. -/
theorem isFulfilled_makeDeviceIfCondition (identifiers : DeviceIdentifiers) :
    ∃ d, makeDeviceIfCondition identifiers = .ok d ∧
      ∀ (entry : Entry) (env : ManipulatorEnvironment) (w : World),
        d.condition.isFulfilled entry env w = true ↔
          ∃ p, env.findDeviceProperties entry.deviceId = some p ∧
            SameKind identifiers p.deviceIdentifiers := by
  refine ⟨_, makeDeviceIfCondition_eq identifiers, fun entry env w => ?_⟩
  change deviceIsFulfilled .deviceIf [sameKindDefinition identifiers] entry env = true ↔ _
  have hfulfilled (p : Devices.DeviceProperties) :=
    fulfilled_sameKindDefinition identifiers p env.getCoreConfiguration
  unfold deviceIsFulfilled DeviceConditionType.candidates
  cases env.findDeviceProperties entry.deviceId with
  | none => simp [DeviceConditionType.found]
  | some p =>
      simp only [Option.toList_some, List.find?_cons, List.find?_nil, List.any_cons, List.any_nil,
        Bool.or_false, List.isEmpty_cons, Bool.false_eq_true, if_false, Option.some.injEq,
        exists_eq_left', ← hfulfilled]
      cases (sameKindDefinition identifiers).fulfilled p env.getCoreConfiguration <;>
        simp [DeviceConditionType.found]

end Karabiner
