import Karabiner.JsonUtility
import Karabiner.Manipulator.Environment

/-!
# The JSON of the payloads of events

The `to_json` and `from_json` of `share/types` and of the vendored classes that an event carries.
Every reader goes through the members of an object in the order of their keys; most of them raise
an error for a key they do not know.

A number is written as it is and read with `get<int>`, `get<int64_t>` or `get<size_t>`, which wrap
around; `Fits` says that the integers of a payload are of the widths that the source gives them.
Then each of these payloads is read back, a sticky modifier `end_` apart.
-/

namespace Karabiner

open JsonUtility

/-- Assign a member if there is a value. -/
def JsonUtility.assignSome (key : String) (value : Option Json) (json : Json) : Json :=
  match value with
  | some value => Json.assign key value json
  | none => json

section

variable [NlohmannJson]

/-- An integer that fits is read as it is. -/
theorem requiresNumber_integer {width : ℕ} {n : ℤ} (hfits : Json.FitsInt width n) (name : String) :
    requiresNumber (Json.toInt width) (.integer n) name = .ok n :=
  requiresNumber_eq_ok.mpr (Json.toInt_integer hfits)

/-! ### Motions, messages and states -/

namespace PointingMotion

/-- `to_json`. -/
def toJson (m : PointingMotion) : Json :=
  Json.null
    |> Json.assign "x" (.integer m.x)
    |> Json.assign "y" (.integer m.y)
    |> Json.assign "vertical_wheel" (.integer m.verticalWheel)
    |> Json.assign "horizontal_wheel" (.integer m.horizontalWheel)

/-- One member.  Other keys are ignored here. -/
def readMember (m : PointingMotion) (key : String) (json : Json) : JsonM PointingMotion :=
  if key = "x" then return { m with x := ← requiresNumber (Json.toInt 32) json (quote key) }
  else if key = "y" then return { m with y := ← requiresNumber (Json.toInt 32) json (quote key) }
  else if key = "vertical_wheel" then
    return { m with verticalWheel := ← requiresNumber (Json.toInt 32) json (quote key) }
  else if key = "horizontal_wheel" then
    return { m with horizontalWheel := ← requiresNumber (Json.toInt 32) json (quote key) }
  else return m

/-- `from_json`. -/
def fromJson (json : Json) : JsonM PointingMotion := readObject readMember ⟨0, 0, 0, 0⟩ json

/-- The fields are of type `int`. -/
structure Fits (m : PointingMotion) : Prop where
  x : Json.FitsInt 32 m.x
  y : Json.FitsInt 32 m.y
  verticalWheel : Json.FitsInt 32 m.verticalWheel
  horizontalWheel : Json.FitsInt 32 m.horizontalWheel

/-- The round trip of a motion, if its numbers fit into their fields. -/
theorem fromJson_toJson {m : PointingMotion} (hfits : m.Fits) : fromJson m.toJson = .ok m := by
  have hwrite : m.toJson = .object [("horizontal_wheel", .integer m.horizontalWheel),
      ("vertical_wheel", .integer m.verticalWheel), ("x", .integer m.x), ("y", .integer m.y)] := rfl
  simp [hwrite, fromJson, readMember, requiresNumber_integer hfits.x,
    requiresNumber_integer hfits.y, requiresNumber_integer hfits.verticalWheel,
    requiresNumber_integer hfits.horizontalWheel]

end PointingMotion

namespace MouseKey

/-- `to_json`. -/
def toJson (m : MouseKey) : Json :=
  Json.null
    |> Json.assign "x" (.integer m.x)
    |> Json.assign "y" (.integer m.y)
    |> Json.assign "vertical_wheel" (.integer m.verticalWheel)
    |> Json.assign "horizontal_wheel" (.integer m.horizontalWheel)
    |> Json.assign "speed_multiplier" (.float m.speedMultiplier)

/-- One member. -/
def readMember (m : MouseKey) (key : String) (json : Json) : JsonM MouseKey :=
  if key = "x" then return { m with x := ← requiresNumber (Json.toInt 32) json (quote key) }
  else if key = "y" then return { m with y := ← requiresNumber (Json.toInt 32) json (quote key) }
  else if key = "vertical_wheel" then
    return { m with verticalWheel := ← requiresNumber (Json.toInt 32) json (quote key) }
  else if key = "horizontal_wheel" then
    return { m with horizontalWheel := ← requiresNumber (Json.toInt 32) json (quote key) }
  else if key = "speed_multiplier" then
    return { m with speedMultiplier := ← requiresNumber Json.toRat json (quote key) }
  else .error (unknownKey key)

/-- `from_json`. -/
def fromJson (json : Json) : JsonM MouseKey := readObject readMember {} json

/-- The integers are of type `int`. -/
structure Fits (m : MouseKey) : Prop where
  x : Json.FitsInt 32 m.x
  y : Json.FitsInt 32 m.y
  verticalWheel : Json.FitsInt 32 m.verticalWheel
  horizontalWheel : Json.FitsInt 32 m.horizontalWheel

/-- The round trip of a mouse key, if its numbers fit into their fields. -/
theorem fromJson_toJson {m : MouseKey} (hfits : m.Fits) : fromJson m.toJson = .ok m := by
  have hwrite : m.toJson = .object [("horizontal_wheel", .integer m.horizontalWheel),
      ("speed_multiplier", .float m.speedMultiplier), ("vertical_wheel", .integer m.verticalWheel),
      ("x", .integer m.x), ("y", .integer m.y)] := rfl
  have hspeed (name : String) :
      requiresNumber Json.toRat (.float m.speedMultiplier) name = .ok m.speedMultiplier := rfl
  simp [hwrite, hspeed, fromJson, readMember, requiresNumber_integer hfits.x,
    requiresNumber_integer hfits.y, requiresNumber_integer hfits.verticalWheel,
    requiresNumber_integer hfits.horizontalWheel]

end MouseKey

namespace NotificationMessage

/-- `to_json`. -/
def toJson (m : NotificationMessage) : Json :=
  .object [("id", .string m.id), ("text", .string m.text)]

/-- One member. -/
def readMember (m : NotificationMessage) (key : String) (json : Json) :
    JsonM NotificationMessage :=
  if key = "id" then return { m with id := ← requiresString json key }
  else if key = "text" then return { m with text := ← requiresString json key }
  else .error (unknownKey key)

/-- `from_json`. -/
def fromJson (json : Json) : JsonM NotificationMessage := readObject readMember ⟨"", ""⟩ json

/-- The round trip of a notification message. -/
theorem fromJson_toJson (m : NotificationMessage) : fromJson m.toJson = .ok m := by
  simp [toJson, fromJson, readMember, requiresString]

end NotificationMessage

namespace VirtualHidDevicesState

/-- `to_json`. -/
def toJson (s : VirtualHidDevicesState) : Json :=
  Json.null
    |> Json.assign "virtual_hid_keyboard_ready" (.boolean s.virtualHidKeyboardReady)
    |> Json.assign "virtual_hid_pointing_ready" (.boolean s.virtualHidPointingReady)

/-- One member. -/
def readMember (s : VirtualHidDevicesState) (key : String) (json : Json) :
    JsonM VirtualHidDevicesState :=
  if key = "virtual_hid_keyboard_ready" then
    return { s with virtualHidKeyboardReady := ← requiresBoolean json (quote key) }
  else if key = "virtual_hid_pointing_ready" then
    return { s with virtualHidPointingReady := ← requiresBoolean json (quote key) }
  else .error (unknownKey key)

/-- `from_json`. -/
def fromJson (json : Json) : JsonM VirtualHidDevicesState := readObject readMember {} json

/-- The round trip of the state of the virtual devices. -/
theorem fromJson_toJson (s : VirtualHidDevicesState) : fromJson s.toJson = .ok s := by
  have hwrite : s.toJson =
      .object [("virtual_hid_keyboard_ready", .boolean s.virtualHidKeyboardReady),
        ("virtual_hid_pointing_ready", .boolean s.virtualHidPointingReady)] := rfl
  simp [hwrite, fromJson, readMember, requiresBoolean]

end VirtualHidDevicesState

namespace SystemPreferencesProperties

/-- `to_json`. -/
def toJson (p : SystemPreferencesProperties) : Json :=
  .object [("scroll_direction_is_natural", .boolean p.scrollDirectionIsNatural),
    ("use_fkeys_as_standard_function_keys", .boolean p.useFkeysAsStandardFunctionKeys)]

/-- One member. -/
def readMember (p : SystemPreferencesProperties) (key : String) (json : Json) :
    JsonM SystemPreferencesProperties :=
  if key = "use_fkeys_as_standard_function_keys" then
    return { p with useFkeysAsStandardFunctionKeys := ← requiresBoolean json (quote key) }
  else if key = "scroll_direction_is_natural" then
    return { p with scrollDirectionIsNatural := ← requiresBoolean json (quote key) }
  else .error (unknownKey key)

/-- `from_json`. -/
def fromJson (json : Json) : JsonM SystemPreferencesProperties :=
  readObject readMember ⟨false, true⟩ json

/-- The round trip of the system preferences. -/
theorem fromJson_toJson (p : SystemPreferencesProperties) : fromJson p.toJson = .ok p := by
  simp [toJson, fromJson, readMember, requiresBoolean]

end SystemPreferencesProperties

/-! ### Applications and input sources -/

namespace FrontmostApplication

/-- `to_json`. -/
def toJson (a : FrontmostApplication) : Json :=
  Json.object []
    |> assignSome "bundle_identifier" (a.bundleIdentifier.map .string)
    |> assignSome "bundle_path" (a.bundlePath.map .string)
    |> assignSome "file_path" (a.filePath.map .string)
    |> assignSome "pid" (a.pid.map .integer)

/-- One member. -/
def readMember (a : FrontmostApplication) (key : String) (json : Json) :
    JsonM FrontmostApplication :=
  if key = "bundle_identifier" then
    return { a with bundleIdentifier := some (← requiresString json (quote key)) }
  else if key = "bundle_path" then
    return { a with bundlePath := some (← requiresString json (quote key)) }
  else if key = "file_path" then
    return { a with filePath := some (← requiresString json (quote key)) }
  else if key = "pid" then
    return { a with pid := some (← requiresNumber (Json.toInt 32) json (quote key)) }
  else .error (unknownKey key)

/-- `from_json`. -/
def fromJson (json : Json) : JsonM FrontmostApplication := readObject readMember {} json

/-- The process id is of type `pid_t`. -/
def Fits (a : FrontmostApplication) : Prop := ∀ pid ∈ a.pid, Json.FitsInt 32 pid

/-- What is read back. -/
theorem fromJson_toJson_eq (a : FrontmostApplication) :
    fromJson a.toJson = .ok { a with pid := a.pid.map fun pid => pid.bmod (2 ^ 32) } := by
  obtain ⟨bundleIdentifier, bundlePath, filePath, pid⟩ := a
  cases bundleIdentifier <;> cases bundlePath <;> cases filePath <;> cases pid <;> rfl

/-- The round trip of a frontmost application, if its pid fits. -/
theorem fromJson_toJson {a : FrontmostApplication} (hfits : a.Fits) :
    fromJson a.toJson = .ok a := by
  have hpid : (a.pid.map fun pid => pid.bmod (2 ^ 32)) = a.pid :=
    (Option.map_congr fun pid hmem =>
      Option.some.inj (Json.toInt_integer (hfits pid hmem))).trans Option.map_id'
  rw [fromJson_toJson_eq, hpid]

end FrontmostApplication

namespace InputSourceProperties

/-- `to_json`. -/
def toJson (p : InputSourceProperties) : Json :=
  Json.object []
    |> assignSome "input_source_id" (p.inputSourceId.map .string)
    |> assignSome "localized_name" (p.localizedName.map .string)
    |> assignSome "input_mode_id" (p.inputModeId.map .string)
    |> assignSome "languages"
      (if p.languages.isEmpty then none else some (.array (p.languages.map .string)))
    |> assignSome "first_language" (p.firstLanguage.map .string)

/-- The member `languages`. -/
def readLanguages (json : Json) (key : String) : JsonM (List String) := do
  let elements ← requiresArray json (quote key)
  elements.mapM fun element => requiresString element (quote key ++ " entry")

/-- One member. -/
def readMember (p : InputSourceProperties) (key : String) (json : Json) :
    JsonM InputSourceProperties :=
  if key = "input_source_id" then
    return { p with inputSourceId := some (← requiresString json (quote key)) }
  else if key = "localized_name" then
    return { p with localizedName := some (← requiresString json (quote key)) }
  else if key = "input_mode_id" then
    return { p with inputModeId := some (← requiresString json (quote key)) }
  else if key = "languages" then return { p with languages := ← readLanguages json key }
  else if key = "first_language" then
    return { p with firstLanguage := some (← requiresString json (quote key)) }
  else .error (unknownKey key)

/-- `from_json`. -/
def fromJson (json : Json) : JsonM InputSourceProperties := readObject readMember {} json

/-- The languages of an array are read in their order. -/
theorem readLanguages_array (languages : List String) (key : String) :
    readLanguages (.array (languages.map .string)) key = .ok languages :=
  mapM_read fun _ _ => rfl

/-- The round trip of the properties of an input source. -/
theorem fromJson_toJson (p : InputSourceProperties) : fromJson p.toJson = .ok p := by
  obtain ⟨inputSourceId, localizedName, inputModeId, languages, firstLanguage⟩ := p
  have hwrite : toJson ⟨inputSourceId, localizedName, inputModeId, languages, firstLanguage⟩ =
      .object (optionalMember "first_language" .string firstLanguage ++
        optionalMember "input_mode_id" .string inputModeId ++
        optionalMember "input_source_id" .string inputSourceId ++
        (if languages.isEmpty then [] else [("languages", .array (languages.map .string))]) ++
        optionalMember "localized_name" .string localizedName) := by
    cases inputSourceId <;> cases localizedName <;> cases inputModeId <;> cases languages <;>
      cases firstLanguage <;> rfl
  have hfirst : readMembers readMember {} (optionalMember "first_language" .string firstLanguage) =
      .ok ⟨none, none, none, [], firstLanguage⟩ :=
    readMembers_optionalMember (fun (p : InputSourceProperties) v => { p with firstLanguage := v })
      (fun _ _ => rfl) rfl
  have hmode : readMembers readMember ⟨none, none, none, [], firstLanguage⟩
      (optionalMember "input_mode_id" .string inputModeId) =
        .ok ⟨none, none, inputModeId, [], firstLanguage⟩ :=
    readMembers_optionalMember (fun (p : InputSourceProperties) v => { p with inputModeId := v })
      (fun _ _ => rfl) rfl
  have hsource : readMembers readMember ⟨none, none, inputModeId, [], firstLanguage⟩
      (optionalMember "input_source_id" .string inputSourceId) =
        .ok ⟨inputSourceId, none, inputModeId, [], firstLanguage⟩ :=
    readMembers_optionalMember (fun (p : InputSourceProperties) v => { p with inputSourceId := v })
      (fun _ _ => rfl) rfl
  have hlanguages : readMembers readMember ⟨inputSourceId, none, inputModeId, [], firstLanguage⟩
      (if languages.isEmpty then [] else [("languages", .array (languages.map .string))]) =
        .ok ⟨inputSourceId, none, inputModeId, languages, firstLanguage⟩ := by
    cases languages with
    | nil => rfl
    | cons l ls =>
        have hread := readLanguages_array (l :: ls) "languages"
        rw [List.map_cons] at hread
        simp [readMember, hread]
  have hname : readMembers readMember ⟨inputSourceId, none, inputModeId, languages, firstLanguage⟩
      (optionalMember "localized_name" .string localizedName) =
        .ok ⟨inputSourceId, localizedName, inputModeId, languages, firstLanguage⟩ :=
    readMembers_optionalMember (fun (p : InputSourceProperties) v => { p with localizedName := v })
      (fun _ _ => rfl) rfl
  simp only [hwrite, fromJson, readObject_object, readMembers_append, hfirst, hmode, hsource,
    hlanguages, hname, JsonM.ok_bind]

end InputSourceProperties

/-- `std::regex`: the error of a pattern that does not compile. -/
class Regex where
  error : String → Option String

namespace InputSourceSpecifier

/-- `to_json`. -/
def toJson (s : InputSourceSpecifier) : Json :=
  Json.object []
    |> assignSome "language" (s.language.map .string)
    |> assignSome "input_source_id" (s.inputSourceId.map .string)
    |> assignSome "input_mode_id" (s.inputModeId.map .string)

variable [Regex]

/-- A member whose text is compiled as a pattern. -/
def readPattern (json : Json) (key : String) : JsonM String := do
  let text ← requiresString json (quote key)
  match Regex.error text with
  | none => return text
  | some what => .error (.unmarshalError
      (what ++ ": " ++ quote ("\"" ++ key ++ "\":" ++ NlohmannJson.dump json)))

/-- One member. -/
def readMember (s : InputSourceSpecifier) (key : String) (json : Json) :
    JsonM InputSourceSpecifier :=
  if key = "language" then return { s with language := some (← readPattern json key) }
  else if key = "input_source_id" then
    return { s with inputSourceId := some (← readPattern json key) }
  else if key = "input_mode_id" then
    return { s with inputModeId := some (← readPattern json key) }
  else .error (unknownKey key)

/-- `from_json`. -/
def fromJson (json : Json) : JsonM InputSourceSpecifier := readObject readMember {} json

omit [NlohmannJson] in
/-- The patterns compile, as those of every specifier do: its setters compile them. -/
structure Compiles (s : InputSourceSpecifier) : Prop where
  language : ∀ text ∈ s.language, Regex.error text = none
  inputSourceId : ∀ text ∈ s.inputSourceId, Regex.error text = none
  inputModeId : ∀ text ∈ s.inputModeId, Regex.error text = none

/-- A pattern that compiles is read as its text. -/
theorem readPattern_string {text : String} (hcompiles : Regex.error text = none) (key : String) :
    readPattern (.string text) key = .ok text := by
  simp [readPattern, requiresString, hcompiles]

/-- The round trip of a specifier, if its patterns compile. -/
theorem fromJson_toJson {s : InputSourceSpecifier} (hcompiles : s.Compiles) :
    fromJson s.toJson = .ok s := by
  obtain ⟨language, inputSourceId, inputModeId⟩ := s
  obtain ⟨hlanguage, hsource, hmode⟩ := hcompiles
  have hwrite : toJson ⟨language, inputSourceId, inputModeId⟩ =
      .object (optionalMember "input_mode_id" .string inputModeId ++
        optionalMember "input_source_id" .string inputSourceId ++
        optionalMember "language" .string language) := by
    cases language <;> cases inputSourceId <;> cases inputModeId <;> rfl
  have hmode : readMembers readMember {} (optionalMember "input_mode_id" .string inputModeId) =
      .ok ⟨none, none, inputModeId⟩ :=
    readMembers_optionalMember (fun (s : InputSourceSpecifier) v => { s with inputModeId := v })
      (fun text h => by simp [readMember, readPattern_string (hmode text h)]) rfl
  have hsource : readMembers readMember ⟨none, none, inputModeId⟩
      (optionalMember "input_source_id" .string inputSourceId) =
        .ok ⟨none, inputSourceId, inputModeId⟩ :=
    readMembers_optionalMember (fun (s : InputSourceSpecifier) v => { s with inputSourceId := v })
      (fun text h => by simp [readMember, readPattern_string (hsource text h)]) rfl
  have hlanguage : readMembers readMember ⟨none, inputSourceId, inputModeId⟩
      (optionalMember "language" .string language) = .ok ⟨language, inputSourceId, inputModeId⟩ :=
    readMembers_optionalMember (fun (s : InputSourceSpecifier) v => { s with language := v })
      (fun text h => by simp [readMember, readPattern_string (hlanguage text h)]) rfl
  simp only [hwrite, fromJson, readObject_object, readMembers_append, hmode, hsource, hlanguage,
    JsonM.ok_bind]

/-- `to_json` of a vector. -/
def vectorToJson (specifiers : List InputSourceSpecifier) : Json :=
  .array (specifiers.map toJson)

/-- `from_json` of a vector. -/
def vectorFromJson (json : Json) : JsonM (List InputSourceSpecifier) :=
  match json with
  | .array elements => elements.mapM fromJson
  | _ => .error .exception

/-- The round trip of several specifiers. -/
theorem vectorFromJson_vectorToJson {specifiers : List InputSourceSpecifier}
    (hcompiles : ∀ s ∈ specifiers, s.Compiles) :
    vectorFromJson (vectorToJson specifiers) = .ok specifiers :=
  mapM_read fun s hmem => fromJson_toJson (hcompiles s hmem)

end InputSourceSpecifier

/-! ### Modifiers -/

/-- `get_modifier_flag_name`. -/
def getModifierFlagName : ModifierFlag → Option String
  | .zero => some "zero"
  | .capsLock => some "caps_lock"
  | .leftControl => some "left_control"
  | .leftShift => some "left_shift"
  | .leftOption => some "left_option"
  | .leftCommand => some "left_command"
  | .rightControl => some "right_control"
  | .rightShift => some "right_shift"
  | .rightOption => some "right_option"
  | .rightCommand => some "right_command"
  | .fn => some "fn"
  | .end_ => none

namespace ModifierFlag

/-- `to_json`.  A flag without a name leaves the value `null`. -/
def toJson (m : ModifierFlag) : Json :=
  match getModifierFlagName m with
  | some name => .string name
  | none => .null

/-- `from_json`. -/
def fromJson (json : Json) : JsonM ModifierFlag := do
  let name ← requiresString json "json"
  if name = "zero" then return .zero
  else if name = "caps_lock" then return .capsLock
  else if name = "left_control" then return .leftControl
  else if name = "left_shift" then return .leftShift
  else if name = "left_option" then return .leftOption
  else if name = "left_command" then return .leftCommand
  else if name = "right_control" then return .rightControl
  else if name = "right_shift" then return .rightShift
  else if name = "right_option" then return .rightOption
  else if name = "right_command" then return .rightCommand
  else if name = "fn" then return .fn
  else .error (.unmarshalError ("unknown modifier_flag: " ++ quote name))

/-- The round trip of a modifier flag that has a name. -/
theorem fromJson_toJson {m : ModifierFlag} (hnamed : m ≠ .end_) : fromJson m.toJson = .ok m := by
  cases m <;> first | rfl | exact absurd rfl hnamed

end ModifierFlag

namespace StickyModifierType

/-- `to_json`. -/
def toJson : StickyModifierType → Json
  | .on => .string "on"
  | .off => .string "off"
  | .toggle => .string "toggle"

/-- `from_json`. -/
def fromJson (json : Json) : JsonM StickyModifierType := do
  let s ← requiresString json "json"
  if s = "on" then return .on
  else if s = "off" then return .off
  else if s = "toggle" then return .toggle
  else .error (.unmarshalError ("unknown value: " ++ quote s))

/-- The round trip of a sticky modifier type. -/
theorem fromJson_toJson (type : StickyModifierType) : fromJson type.toJson = .ok type := by
  cases type <;> rfl

end StickyModifierType

namespace StickyModifier

/-- `to_json` of a pair. -/
def toJson (m : ModifierFlag) (type : StickyModifierType) : Json := .array [m.toJson, type.toJson]

/-- `nlohmann::json::at`. -/
def elementAt (elements : List Json) (index : ℕ) : JsonM Json :=
  match elements[index]? with
  | some json => .ok json
  | none => .error .exception

/-- `from_json` of a pair, which ignores further elements. -/
def fromJson : Json → JsonM (ModifierFlag × StickyModifierType)
  | .array elements => do
    let m ← ModifierFlag.fromJson (← elementAt elements 0)
    let type ← StickyModifierType.fromJson (← elementAt elements 1)
    return (m, type)
  | _ => .error .exception

/-- A sticky modifier is read back if its flag has a name. -/
theorem fromJson_toJson (m : ModifierFlag) (type : StickyModifierType) :
    fromJson (toJson m type) = .ok (m, type) ↔ m ≠ .end_ := by
  by_cases hnamed : m = .end_
  · subst hnamed
    refine iff_of_false (fun h => ?_) fun h => h rfl
    cases h
  · refine iff_of_true ?_ hnamed
    simp [toJson, fromJson, elementAt, ModifierFlag.fromJson_toJson hnamed,
      StickyModifierType.fromJson_toJson]

end StickyModifier

end

end Karabiner
