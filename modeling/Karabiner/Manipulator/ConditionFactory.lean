import Karabiner.EventQueue.Event.SetVariableJson

/-!
# Conditions from JSON

`share/manipulator/condition_factory.hpp` and the constructors of `share/manipulator/conditions`.

A condition is read to a `ConditionDefinition`, the members of its class.  What it answers is not
part of its definition; `Condition` is what the manipulators evaluate.
-/

namespace Karabiner

open JsonUtility

/-! ### The members of the classes -/

/-- `conditions::device::type`. -/
inductive DeviceConditionType
  | deviceIf
  | deviceUnless
  | deviceExistsIf
  | deviceExistsUnless
deriving DecidableEq, Repr

/-- `conditions::device::definition`. -/
structure DeviceConditionDefinition where
  vendorId : Option ℕ := none
  productId : Option ℕ := none
  locationId : Option ℤ := none
  deviceAddress : Option String := none
  isKeyboard : Option Bool := none
  isPointingDevice : Option Bool := none
  isGamePad : Option Bool := none
  isConsumer : Option Bool := none
  isTouchBar : Option Bool := none
  isBuiltInKeyboard : Option Bool := none
deriving DecidableEq, Repr

/-- The members of a condition, by its class. -/
inductive ConditionDefinition
  | device (type : DeviceConditionType) (definitions : List DeviceConditionDefinition)
  | eventChanged (type : ConditionType) (value : Bool)
  | expression (type : ConditionType) (expression : Option ExpressionWrapper)
  | frontmostApplication (type : ConditionType) (bundleIdentifiers filePaths : List String)
  | inputSource (type : ConditionType) (inputSourceSpecifiers : List InputSourceSpecifier)
  | variable (type : ConditionType) (name : String) (value : VariableValue)
  | keyboardType (type : ConditionType) (keyboardTypes : List String)
deriving DecidableEq, Repr

/-- `valid`: a field is given. -/
def DeviceConditionDefinition.valid (d : DeviceConditionDefinition) : Bool :=
  d.vendorId.isSome || d.productId.isSome || d.locationId.isSome || d.deviceAddress.isSome ||
    d.isKeyboard.isSome || d.isPointingDevice.isSome || d.isGamePad.isSome ||
    d.isConsumer.isSome || d.isTouchBar.isSome || d.isBuiltInKeyboard.isSome

namespace ConditionFactory

variable [NlohmannJson]

/-! ### What the constructors share -/

/-- The error for a key that a reader does not know, with the object it stands in. -/
def unknownKeyIn (key : String) (json : Json) : JsonError :=
  .unmarshalError
    ("unknown key " ++ quote key ++ " in " ++ quote (dumpForErrorMessage json))

/-- The error for a member that is missing. -/
def notFoundIn (key : String) (json : Json) : JsonError :=
  .unmarshalError (quote key ++ " is not found in " ++ quote (dumpForErrorMessage json))

/-- The member `type` of a condition and its negation. -/
def readType (base key : String) (value : Json) : JsonM ConditionType := do
  let t ← requiresString value key
  if t = base ++ "_if" then return .if_
  else if t = base ++ "_unless" then return .unless
  else .error (.unmarshalError ("unknown type " ++ quote t))

/-- Texts that are compiled as patterns. -/
def readPatterns [Regex] (key : String) (value : Json) : JsonM (List String) := do
  let elements ← requiresArray value (quote key)
  elements.mapM fun j => do
    let s ← requiresString j (key ++ " entry")
    match Regex.error s with
    | none => return s
    | some what => .error (.unmarshalError
        (what ++ ": " ++ quote (key ++ ":" ++ dumpForErrorMessage value)))

/-! ### The constructors -/

/-- One member of an entry of `identifiers`. -/
def readIdentifier (json : Json) (d : DeviceConditionDefinition) (key : String) (value : Json) :
    JsonM DeviceConditionDefinition :=
  let name := "identifiers entry " ++ quote key
  if key = "vendor_id" then
    return { d with vendorId := some (← requiresNumber (Json.toNat 64) value name) }
  else if key = "product_id" then
    return { d with productId := some (← requiresNumber (Json.toNat 64) value name) }
  else if key = "location_id" then
    return { d with locationId := some (← requiresNumber (Json.toInt 32) value name) }
  else if key = "device_address" then
    return { d with deviceAddress := some (← requiresString value name) }
  else if key = "is_keyboard" then
    return { d with isKeyboard := some (← requiresBoolean value name) }
  else if key = "is_pointing_device" then
    return { d with isPointingDevice := some (← requiresBoolean value name) }
  else if key = "is_game_pad" then
    return { d with isGamePad := some (← requiresBoolean value name) }
  else if key = "is_consumer" then
    return { d with isConsumer := some (← requiresBoolean value name) }
  else if key = "is_touch_bar" then
    return { d with isTouchBar := some (← requiresBoolean value name) }
  else if key = "is_built_in_keyboard" then
    return { d with isBuiltInKeyboard := some (← requiresBoolean value name) }
  else if key = "description" then return d
  else .error (unknownKeyIn key json)

/-- `handle_identifiers_json`.  An entry without a field is dropped. -/
def handleIdentifiersJson (elements : List Json) : JsonM (List DeviceConditionDefinition) := do
  let definitions ← elements.mapM fun j => do
    readMembers (readIdentifier j) {} (← requiresObject j "identifiers entry")
  return definitions.filter DeviceConditionDefinition.valid

/-- The member `type` of `conditions::device`. -/
def readDeviceType (key : String) (value : Json) : JsonM DeviceConditionType := do
  let t ← requiresString value key
  if t = "device_if" then return .deviceIf
  else if t = "device_unless" then return .deviceUnless
  else if t = "device_exists_if" then return .deviceExistsIf
  else if t = "device_exists_unless" then return .deviceExistsUnless
  else .error (.unmarshalError ("unknown type " ++ quote t))

/-- The constructor of `conditions::device`. -/
def makeDevice (json : Json) : JsonM ConditionDefinition := do
  let (type, definitions) ← readObject
    (fun (type, definitions) key value =>
      if key = "type" then return (← readDeviceType key value, definitions)
      else if key = "identifiers" then do
        let elements ← requiresArray value (quote key)
        return (type, definitions ++ (← handleIdentifiersJson elements))
      else if key = "description" then return (type, definitions)
      else .error (unknownKeyIn key json))
    (DeviceConditionType.deviceIf, []) json
  return .device type definitions

/-- The constructor of `conditions::event_changed`. -/
def makeEventChanged (json : Json) : JsonM ConditionDefinition := do
  let (type, value) ← readObject
    (fun (type, current) key value =>
      if key = "type" then return (← readType "event_changed" key value, current)
      else if key = "value" then return (type, some (← requiresBoolean value (quote key)))
      else if key = "description" then return (type, current)
      else .error (unknownKeyIn key json))
    (ConditionType.if_, (none : Option Bool)) json
  match value with
  | some value => return .eventChanged type value
  | none => .error (notFoundIn "value" json)

/-- The constructor of `conditions::expression`. -/
def makeExpression [Exprtk] (allocate : String → ℕ) (json : Json) : JsonM ConditionDefinition := do
  let (type, expression) ← readObject
    (fun (type, expression) key value =>
      if key = "type" then return (← readType "expression" key value, expression)
      else if key = "expression" then
        return (type, some (← unmarshalExpressionString (allocate key) key value))
      else if key = "description" then return (type, expression)
      else .error (unknownKeyIn key json))
    (ConditionType.if_, (none : Option ExpressionWrapper)) json
  return .expression type expression

/-- The constructor of `conditions::frontmost_application`. -/
def makeFrontmostApplication [Regex] (json : Json) : JsonM ConditionDefinition := do
  let (type, bundleIdentifiers, filePaths) ← readObject
    (fun (type, bundleIdentifiers, filePaths) key value =>
      if key = "type" then
        return (← readType "frontmost_application" key value, bundleIdentifiers, filePaths)
      else if key = "bundle_identifiers" then
        return (type, bundleIdentifiers ++ (← readPatterns key value), filePaths)
      else if key = "file_paths" then
        return (type, bundleIdentifiers, filePaths ++ (← readPatterns key value))
      else if key = "description" then return (type, bundleIdentifiers, filePaths)
      else .error (unknownKeyIn key json))
    (ConditionType.if_, [], []) json
  return .frontmostApplication type bundleIdentifiers filePaths

/-- The constructor of `conditions::input_source`. -/
def makeInputSource [Regex] (json : Json) : JsonM ConditionDefinition := do
  let (type, specifiers) ← readObject
    (fun (type, specifiers) key value =>
      if key = "type" then return (← readType "input_source" key value, specifiers)
      else if key = "input_sources" then do
        let elements ← requiresArray value (quote key)
        return (type, specifiers ++ (← elements.mapM fun j =>
          atPath (quote key ++ " entry") (InputSourceSpecifier.fromJson j)))
      else if key = "description" then return (type, specifiers)
      else .error (unknownKeyIn key json))
    (ConditionType.if_, []) json
  return .inputSource type specifiers

/-- The constructor of `conditions::variable`. -/
def makeVariable (json : Json) : JsonM ConditionDefinition := do
  let (type, name, value) ← readObject
    (fun (type, name, current) key value =>
      if key = "type" then return (← readType "variable" key value, name, current)
      else if key = "name" then return (type, some (← requiresString value (quote key)), current)
      else if key = "value" then return (type, name, some (← VariableValue.fromJson value))
      else if key = "description" then return (type, name, current)
      else .error (unknownKeyIn key json))
    (ConditionType.if_, (none : Option String), (none : Option VariableValue)) json
  match name, value with
  | none, _ => .error (notFoundIn "name" json)
  | _, none => .error (notFoundIn "value" json)
  | some name, some value => return .variable type name value

/-- The constructor of `conditions::keyboard_type`. -/
def makeKeyboardType (json : Json) : JsonM ConditionDefinition := do
  let (type, keyboardTypes) ← readObject
    (fun (type, keyboardTypes) key value =>
      if key = "type" then return (← readType "keyboard_type" key value, keyboardTypes)
      else if key = "keyboard_types" then do
        let elements ← requiresArray value (quote key)
        return (type, keyboardTypes ++ (← elements.mapM fun j =>
          requiresString j "keyboard_types entry"))
      else if key = "description" then return (type, keyboardTypes)
      else .error (unknownKeyIn key json))
    (ConditionType.if_, []) json
  return .keyboardType type keyboardTypes

/-! ### The factory -/

/-- `json.find`, which finds nothing in a value that is no object. -/
def find (key : String) : Json → Option Json
  | .object members => members.lookup key
  | _ => none

/-- `make_condition`.  The wrapper of an expression is allocated by its key. -/
def makeCondition [Regex] [Exprtk] (allocate : String → ℕ) (json : Json) :
    JsonM ConditionDefinition :=
  match find "type" json with
  | none => .error (.unmarshalError
      ("condition type is not specified in " ++ quote (dumpForErrorMessage json)))
  | some typeJson => do
    let type ← requiresString typeJson "condition type"
    if type ∈ ["device_if", "device_unless", "device_exists_if", "device_exists_unless"] then
      makeDevice json
    else if type ∈ ["event_changed_if", "event_changed_unless"] then makeEventChanged json
    else if type ∈ ["expression_if", "expression_unless"] then makeExpression allocate json
    else if type ∈ ["frontmost_application_if", "frontmost_application_unless"] then
      makeFrontmostApplication json
    else if type ∈ ["input_source_if", "input_source_unless"] then makeInputSource json
    else if type ∈ ["variable_if", "variable_unless"] then makeVariable json
    else if type ∈ ["keyboard_type_if", "keyboard_type_unless"] then makeKeyboardType json
    else .error (.unmarshalError
      ("unknown condition type " ++ quote type ++ " in " ++ quote (dumpForErrorMessage json)))

end ConditionFactory

end Karabiner
