import Karabiner.CoreConfiguration.ComplexModifications
import Karabiner.CoreConfiguration.Device

/-!
# Profiles

`share/core_configuration/details/profile.hpp`, with its `parameters` and its
`virtual_hid_keyboard`: a profile has a name, a flag that says whether it is selected, and the parts
that hold its settings.

* `Valid` — what every profile of a configuration satisfies.
* `construct_toJson` — **a valid profile can be read again** after it is written, and its own
  settings are restored.
* `Blank`, `toJson_isEmpty_iff` — which profiles write nothing.
-/

namespace Karabiner.CoreConfiguration

open JsonUtility

/-! ### Parameters -/

namespace Parameters

/-- The one setting of the parameters. -/
inductive Setting
  | delayMillisecondsBeforeOpenDevice
deriving DecidableEq, Repr

instance : SettingFamily Setting where
  key := fun _ => "delay_milliseconds_before_open_device"
  type := fun _ => .milliseconds
  default := fun _ => (1000 : Int64)
  all := [.delayMillisecondsBeforeOpenDevice]
  mem_all := by
    rintro ⟨⟩
    decide
  nodup_keys := by decide

end Parameters

/-- `parameters`. -/
abbrev Parameters : Type := SettingsObject Parameters.Setting

/-! ### The virtual keyboard -/

namespace VirtualHidKeyboard

/-- The settings, in the order in which the constructor adds them. -/
inductive Setting
  | keyboardTypeV2
  | mouseKeyXyScale
  | indicateStickyModifierKeysState
deriving DecidableEq, Repr

namespace Setting

def key : Setting → String
  | keyboardTypeV2 => "keyboard_type_v2"
  | mouseKeyXyScale => "mouse_key_xy_scale"
  | indicateStickyModifierKeysState => "indicate_sticky_modifier_keys_state"

@[reducible] def type : Setting → SettingType
  | keyboardTypeV2 => .string
  | mouseKeyXyScale => .integer
  | indicateStickyModifierKeysState => .boolean

def default : (s : Setting) → s.type.Carrier
  | keyboardTypeV2 => ""
  | mouseKeyXyScale => (100 : Int32)
  | indicateStickyModifierKeysState => true

instance : SettingFamily Setting where
  key := key
  type := type
  default := default
  all := [keyboardTypeV2, mouseKeyXyScale, indicateStickyModifierKeysState]
  mem_all := by
    intro s
    cases s <;> decide
  nodup_keys := by decide

end Setting

end VirtualHidKeyboard

/-- `virtual_hid_keyboard`. -/
abbrev VirtualHidKeyboard : Type := SettingsObject VirtualHidKeyboard.Setting

/-- `set_mouse_key_xy_scale`. -/
def VirtualHidKeyboard.setMouseKeyXyScale (value : Int32) (k : VirtualHidKeyboard) :
    VirtualHidKeyboard :=
  SettingsObject.setValue VirtualHidKeyboard.Setting.mouseKeyXyScale
    (if value < 0 then (0 : Int32) else value) k

/-! ### Profiles -/

namespace Profile

/-- The settings of a profile itself, in the order in which the constructor adds them. -/
inductive Setting
  | name
  | selected
deriving DecidableEq, Repr

namespace Setting

def key : Setting → String
  | name => "name"
  | selected => "selected"

@[reducible] def type : Setting → SettingType
  | name => .string
  | selected => .boolean

def default : (s : Setting) → s.type.Carrier
  | name => ""
  | selected => false

instance : SettingFamily Setting where
  key := key
  type := type
  default := default
  all := [name, selected]
  mem_all := by
    intro s
    cases s <;> decide
  nodup_keys := by decide

end Setting

/-- The function keys and what they do by default. -/
def defaultFnFunctionKeys : List (String × String × String) := [
  ("f1", "consumer_key_code", "display_brightness_decrement"),
  ("f2", "consumer_key_code", "display_brightness_increment"),
  ("f3", "apple_vendor_keyboard_key_code", "mission_control"),
  ("f4", "apple_vendor_keyboard_key_code", "spotlight"),
  ("f5", "consumer_key_code", "dictation"),
  ("f6", "key_code", "f6"),
  ("f7", "consumer_key_code", "rewind"),
  ("f8", "consumer_key_code", "play_or_pause"),
  ("f9", "consumer_key_code", "fast_forward"),
  ("f10", "consumer_key_code", "mute"),
  ("f11", "consumer_key_code", "volume_decrement"),
  ("f12", "consumer_key_code", "volume_increment")]

/-- `make_default_fn_function_keys_json`. -/
def makeDefaultFnFunctionKeysJson : List Json :=
  (defaultFnFunctionKeys.map fun (fromKey, toType, toName) =>
    (.object [("key_code", .string fromKey)], .array [.object [(toType, .string toName)]])).map
      SimpleModifications.pairJson

end Profile

/-- `profile`. -/
structure Profile where
  members : Json.Members
  errorHandling : ErrorHandling
  values : HelperValues Profile.Setting
  parameters : Parameters
  virtualHidKeyboard : VirtualHidKeyboard
  devices : List Device
  simpleModifications : SimpleModifications
  fnFunctionKeys : SimpleModifications
  complexModifications : ComplexModifications

namespace Profile

/-- A profile without devices and pairs. -/
def bare : Profile where
  members := []
  errorHandling := .loose
  values := .make
  parameters := .default
  virtualHidKeyboard := .default
  devices := []
  simpleModifications := {}
  fnFunctionKeys := {}
  complexModifications := {}

/-- `get_name`. -/
def name (p : Profile) : String := (p.values .name).value

/-- `get_selected`. -/
def selected (p : Profile) : Bool := (p.values .selected).value

/-- `set_name`. -/
def setName (value : String) (p : Profile) : Profile :=
  { p with values := p.values.setValue .name value }

/-- `set_selected`. -/
def setSelected (value : Bool) (p : Profile) : Profile :=
  { p with values := p.values.setValue .selected value }

@[simp] theorem name_setName (value : String) (p : Profile) : (p.setName value).name = value := rfl

@[simp] theorem selected_setName (value : String) (p : Profile) :
    (p.setName value).selected = p.selected := rfl

@[simp] theorem selected_setSelected (value : Bool) (p : Profile) :
    (p.setSelected value).selected = value := rfl

@[simp] theorem name_setSelected (value : Bool) (p : Profile) :
    (p.setSelected value).name = p.name := rfl

section

variable [NlohmannJson] [NaturalSort]

/-! ### Reading and writing -/

/-- The constructor from JSON.  It takes the members that are no helper values in the order of
their keys. -/
def construct (errorHandling : ErrorHandling) (json : Json) : JsonM Profile := do
  let fnFunctionKeys ←
    (SimpleModifications.update (.array makeDefaultFnFunctionKeysJson) {}).result
  let members ← requiresObject json "json"
  let values ← HelperValues.updateValue errorHandling members .make
  let parameters ←
    updateObject "parameters" (SettingsObject.construct errorHandling) members .default
  let virtualHidKeyboard ←
    updateObject "virtual_hid_keyboard" (SettingsObject.construct errorHandling) members .default
  let devices ← (updateArray "devices" (Device.construct errorHandling) members []).result
  let complexModifications ←
    updateObject "complex_modifications" (ComplexModifications.construct errorHandling) members {}
  let fnFunctionKeys ←
    updateObject "fn_function_keys" (fun json => (fnFunctionKeys.update json).result) members
      fnFunctionKeys
  let simpleModifications ←
    updateObject "simple_modifications" (fun json => (SimpleModifications.update json {}).result)
      members {}
  return { members, errorHandling, values, parameters, virtualHidKeyboard, devices,
           simpleModifications, fnFunctionKeys, complexModifications }

omit [NaturalSort] in
/-- What `to_json` puts under each key. -/
def entries (p : Profile) : List (String × Option Json) :=
  p.values.entries ++ [
    ("parameters", savedObject p.parameters.toJson),
    ("virtual_hid_keyboard", savedObject p.virtualHidKeyboard.toJson),
    ("devices", savedArray (p.devices.map Device.toJson)),
    ("simple_modifications", savedObject (p.simpleModifications.toJson [])),
    ("fn_function_keys", savedObject (p.fnFunctionKeys.toJson makeDefaultFnFunctionKeysJson)),
    ("complex_modifications", savedObject p.complexModifications.toJson)]

omit [NaturalSort] in
/-- The members of `to_json`. -/
def toMembers (p : Profile) : Json.Members := Json.putAll p.entries p.members

omit [NaturalSort] in
/-- `to_json`. -/
def toJson (p : Profile) : Json := .object p.toMembers

/-! ### Editing -/

/-- `get_device`: a device that is not there is added. -/
def getDevice (identifiers : DeviceIdentifiers) (p : Profile) : Profile :=
  if p.devices.any fun d => d.identifiers.same identifiers then p
  else
    match Device.construct p.errorHandling (.object [("identifiers", identifiers.toJson)]) with
    | .ok device => { p with devices := p.devices ++ [device] }
    | .error _ => p

omit [NaturalSort] in
/-- `erase_not_connected_devices`. -/
def eraseNotConnectedDevices (connected : DeviceIdentifiers → Bool) (p : Profile) : Profile where
  __ := p
  devices := p.devices.filter fun d => !(!connected d.identifiers && !d.toJson.isEmpty)

end

/-- A call that changes a profile or one of its parts. -/
inductive Edit
  | setName (value : String)
  | setSelected (value : Bool)
  | setDelayMillisecondsBeforeOpenDevice (value : Int64)
  | setKeyboardTypeV2 (value : String)
  | setMouseKeyXyScale (value : Int32)
  | setIndicateStickyModifierKeysState (value : Bool)
  | getDevice (identifiers : DeviceIdentifiers)
  | device (index : ℕ) (edit : Device.Edit)
  | eraseNotConnectedDevices (connected : DeviceIdentifiers → Bool)
  | simpleModifications (edit : SimpleModifications.Edit)
  | fnFunctionKeys (edit : SimpleModifications.Edit)
  | complexModifications (edit : ComplexModifications.Edit)

variable [NlohmannJson] [NaturalSort]

/-- The effect of a call. -/
def Edit.apply (p : Profile) : Edit → Profile
  | setName value => p.setName value
  | setSelected value => p.setSelected value
  | setDelayMillisecondsBeforeOpenDevice value =>
    { p with parameters := p.parameters.setValue .delayMillisecondsBeforeOpenDevice value }
  | setKeyboardTypeV2 value =>
    { p with virtualHidKeyboard := p.virtualHidKeyboard.setValue .keyboardTypeV2 value }
  | setMouseKeyXyScale value =>
    { p with virtualHidKeyboard := p.virtualHidKeyboard.setMouseKeyXyScale value }
  | setIndicateStickyModifierKeysState value =>
    { p with
      virtualHidKeyboard := p.virtualHidKeyboard.setValue .indicateStickyModifierKeysState value }
  | getDevice identifiers => p.getDevice identifiers
  | device index edit => { p with devices := p.devices.modify index edit.apply }
  | eraseNotConnectedDevices connected => p.eraseNotConnectedDevices connected
  | simpleModifications edit =>
    { p with simpleModifications := edit.apply p.simpleModifications }
  | fnFunctionKeys edit => { p with fnFunctionKeys := edit.apply p.fnFunctionKeys }
  | complexModifications edit =>
    { p with complexModifications := edit.apply p.errorHandling p.complexModifications }

/-! ### New profiles -/

/-- The function keys of a profile without JSON for them. -/
def newFnFunctionKeys : SimpleModifications :=
  (SimpleModifications.update (.array makeDefaultFnFunctionKeysJson) {}).value

/-- A profile of which only its own settings have been read. -/
def ofValues (errorHandling : ErrorHandling) (members : Json.Members)
    (values : HelperValues Setting) : Profile where
  members := members
  errorHandling := errorHandling
  values := values
  parameters := .default
  virtualHidKeyboard := .default
  devices := []
  simpleModifications := {}
  fnFunctionKeys := newFnFunctionKeys
  complexModifications := {}

theorem update_defaultFnFunctionKeys :
    (SimpleModifications.update (.array makeDefaultFnFunctionKeysJson) {}).result =
      .ok newFnFunctionKeys := by
  refine Update.result_eq_ok (SimpleModifications.error_update_array (fun pair hpair => ?_) {})
  obtain ⟨_, -, rfl⟩ := List.mem_map.mp hpair
  exact ⟨_, rfl⟩

/-- The constructor, for JSON with only the profile's own settings. -/
theorem construct_ofValues {errorHandling : ErrorHandling} {members : Json.Members}
    {values : HelperValues Setting} (hkeys : ∀ m ∈ members, m.1 = "name" ∨ m.1 = "selected")
    (hvalues : HelperValues.updateValue errorHandling members .make = .ok values) :
    construct errorHandling (.object members) = .ok (ofValues errorHandling members values) := by
  have hlookup {key : String} (hname : key ≠ "name") (hselected : key ≠ "selected") :
      members.lookup key = none := by
    rw [List.lookup_eq_none_iff]
    intro m hm
    rcases hkeys m hm with h | h <;> rw [h]
    · simpa using hname
    · simpa using hselected
  have hobject {α : Type} {key : String} (hname : key ≠ "name") (hselected : key ≠ "selected")
      (construct : Json → JsonM α) (value : α) :
      updateObject key construct members value = .ok value := by
    simp only [updateObject, hlookup hname hselected]
  have hdevices : (updateArray "devices" (Device.construct errorHandling) members []).result =
      .ok [] := by
    simp only [updateArray, hlookup (by decide : "devices" ≠ "name") (by decide), Update.result]
  simp only [construct, update_defaultFnFunctionKeys, requiresObject, JsonM.ok_bind, hvalues,
    hdevices, hobject (by decide : "parameters" ≠ "name") (by decide),
    hobject (by decide : "virtual_hid_keyboard" ≠ "name") (by decide),
    hobject (by decide : "complex_modifications" ≠ "name") (by decide),
    hobject (by decide : "fn_function_keys" ≠ "name") (by decide),
    hobject (by decide : "simple_modifications" ≠ "name") (by decide)]
  rfl

/-- The settings of a profile whose JSON has a name. -/
def namedValues (name : String) (selected : HelperValue .boolean) : HelperValues Setting
  | .name => ⟨name, "", .json⟩
  | .selected => selected

/-- A profile that is made from a name alone. -/
theorem construct_name (errorHandling : ErrorHandling) (name : String) :
    construct errorHandling (.object [("name", .string name)]) =
      .ok (ofValues errorHandling [("name", .string name)] (namedValues name (.make false))) := by
  refine construct_ofValues (by simp) (HelperValues.updateValue_eq_ok fun s => ?_)
  cases s <;> rfl

/-- A profile that is made from a name and a flag. -/
theorem construct_name_selected (errorHandling : ErrorHandling) (name : String) (selected : Bool) :
    construct errorHandling (.object [("name", .string name), ("selected", .boolean selected)]) =
      .ok (ofValues errorHandling [("name", .string name), ("selected", .boolean selected)]
        (namedValues name ⟨selected, false, .json⟩)) := by
  refine construct_ofValues (by simp) (HelperValues.updateValue_eq_ok fun s => ?_)
  cases s <;> rfl

/-! ### Valid profiles -/

/-- What every profile of a configuration satisfies, whatever is done to it. -/
structure Valid (errorHandling : ErrorHandling) (p : Profile) : Prop where
  errorHandling_eq : p.errorHandling = errorHandling
  values : p.values.KeepsDefaults
  parameters : HelperValues.KeepsDefaults p.parameters.values
  virtualHidKeyboard : HelperValues.KeepsDefaults p.virtualHidKeyboard.values
  complexModifications : p.complexModifications.Valid errorHandling

omit [NaturalSort] in
/-- An object that is read keeps its defaults. -/
theorem keepsDefaults_updateObject {ι : Type} [DecidableEq ι] [SettingFamily ι]
    {errorHandling : ErrorHandling} {key : String} {members : Json.Members} {o : SettingsObject ι}
    (h : updateObject key (SettingsObject.construct errorHandling) members .default = .ok o) :
    o.values.KeepsDefaults := by
  unfold updateObject at h
  split at h
  · obtain rfl := Except.ok.inj h
    exact HelperValues.keepsDefaults_make
  · exact SettingsObject.keepsDefaults_of_construct (atPath_eq_ok.mp h)

theorem Valid.of_construct {errorHandling : ErrorHandling} {json : Json} {p : Profile}
    (h : construct errorHandling json = .ok p) : p.Valid errorHandling := by
  obtain ⟨_, -, h⟩ := JsonM.bind_eq_ok.mp h
  obtain ⟨members, -, h⟩ := JsonM.bind_eq_ok.mp h
  obtain ⟨values, hvalues, h⟩ := JsonM.bind_eq_ok.mp h
  obtain ⟨parameters, hparameters, h⟩ := JsonM.bind_eq_ok.mp h
  obtain ⟨virtualHidKeyboard, hkeyboard, h⟩ := JsonM.bind_eq_ok.mp h
  obtain ⟨devices, -, h⟩ := JsonM.bind_eq_ok.mp h
  obtain ⟨complexModifications, hcomplex, h⟩ := JsonM.bind_eq_ok.mp h
  obtain ⟨_, -, h⟩ := JsonM.bind_eq_ok.mp h
  obtain ⟨_, -, rfl⟩ := JsonM.bind_pure_eq_ok.mp h
  have hrules : complexModifications.Valid errorHandling := by
    unfold updateObject at hcomplex
    split at hcomplex
    · obtain rfl := Except.ok.inj hcomplex
      exact ComplexModifications.valid_default errorHandling
    · exact .of_construct (atPath_eq_ok.mp hcomplex)
  exact ⟨rfl, HelperValues.keepsDefaults_make.updateValue hvalues,
    keepsDefaults_updateObject hparameters, keepsDefaults_updateObject hkeyboard, hrules⟩

omit [NaturalSort] in
theorem Valid.setName {errorHandling : ErrorHandling} {p : Profile} (h : p.Valid errorHandling)
    (value : String) : (p.setName value).Valid errorHandling :=
  { h with values := h.values.setValue .name value }

omit [NaturalSort] in
theorem Valid.setSelected {errorHandling : ErrorHandling} {p : Profile}
    (h : p.Valid errorHandling) (value : Bool) : (p.setSelected value).Valid errorHandling :=
  { h with values := h.values.setValue .selected value }

/-- **Every call keeps a profile valid.** -/
theorem Valid.edit {errorHandling : ErrorHandling} {p : Profile} (h : p.Valid errorHandling)
    (edit : Edit) : (edit.apply p).Valid errorHandling := by
  cases edit with
  | setName value => exact h.setName value
  | setSelected value => exact h.setSelected value
  | setDelayMillisecondsBeforeOpenDevice value =>
      exact { h with
        parameters := h.parameters.setValue .delayMillisecondsBeforeOpenDevice value }
  | setKeyboardTypeV2 value =>
      exact { h with virtualHidKeyboard := h.virtualHidKeyboard.setValue .keyboardTypeV2 value }
  | setMouseKeyXyScale value =>
      exact { h with virtualHidKeyboard := h.virtualHidKeyboard.setValue .mouseKeyXyScale _ }
  | setIndicateStickyModifierKeysState value =>
      exact { h with
        virtualHidKeyboard :=
          h.virtualHidKeyboard.setValue .indicateStickyModifierKeysState value }
  | getDevice identifiers =>
      simp only [Edit.apply, getDevice]
      split_ifs
      · exact h
      · split
        · exact { h with }
        · exact h
  | complexModifications edit =>
      exact { h with
        complexModifications := h.errorHandling_eq ▸ h.complexModifications.edit edit }
  | device index edit => exact { h with }
  | eraseNotConnectedDevices connected => exact { h with }
  | simpleModifications edit => exact { h with }
  | fnFunctionKeys edit => exact { h with }

/-! ### What is written can be read again -/

omit [NlohmannJson] [NaturalSort] in
/-- The keys of all members that a profile knows. -/
def knownKeys : List String := ["name", "selected", "parameters", "virtual_hid_keyboard", "devices",
  "simple_modifications", "fn_function_keys", "complex_modifications"]

omit [NaturalSort] in
theorem keys_entries (p : Profile) : p.entries.map Prod.fst = knownKeys := by
  rw [entries, List.map_append, HelperValues.keys_entries]
  rfl

omit [NaturalSort] in
theorem nodup_keys (p : Profile) : (p.entries.map Prod.fst).Nodup := by
  rw [keys_entries]
  decide

omit [NaturalSort] in
theorem lookup_toMembers {p : Profile} {key : String} {value : Option Json}
    (hentry : (key, value) ∈ p.entries) : p.toMembers.lookup key = value :=
  Json.lookup_putAll p.nodup_keys hentry p.members

/-- What `construct` makes of what a profile writes, as far as its own settings go. -/
structure Reloads (p q : Profile) : Prop where
  values : ∀ s, (q.values s).value = s.type.restore (p.values s).value
  parameters : ∀ s, (q.parameters.values s).value =
    SettingType.restore .milliseconds (p.parameters.values s).value
  virtualHidKeyboard : ∀ s, (q.virtualHidKeyboard.values s).value =
    s.type.restore (p.virtualHidKeyboard.values s).value

/-- **A valid profile can be read again** after it is written. -/
theorem construct_toJson {errorHandling : ErrorHandling} {p : Profile}
    (h : p.Valid errorHandling) :
    ∃ q, construct errorHandling p.toJson = .ok q ∧ Reloads p q := by
  have hvalues := HelperValues.updateValue_saved errorHandling p.values
    (fun s => lookup_toMembers (List.mem_append_left _ (p.values.mem_entries s))) .make
  have hparameters : p.toMembers.lookup "parameters" = savedObject p.parameters.toJson :=
    lookup_toMembers (by simp [entries])
  have hkeyboard : p.toMembers.lookup "virtual_hid_keyboard" =
      savedObject p.virtualHidKeyboard.toJson :=
    lookup_toMembers (by simp [entries])
  have hdevices : p.toMembers.lookup "devices" = savedArray (p.devices.map Device.toJson) :=
    lookup_toMembers (by simp [entries])
  have hsimple : p.toMembers.lookup "simple_modifications" =
      savedObject (p.simpleModifications.toJson []) :=
    lookup_toMembers (by simp [entries])
  have hfn : p.toMembers.lookup "fn_function_keys" =
      savedObject (p.fnFunctionKeys.toJson makeDefaultFnFunctionKeysJson) :=
    lookup_toMembers (by simp [entries])
  have hcomplex : p.toMembers.lookup "complex_modifications" =
      savedObject p.complexModifications.toJson :=
    lookup_toMembers (by simp [entries])
  obtain ⟨devices, hdevices', -⟩ := updateArray_saved hdevices (List.forall_mem_map.mpr
    fun d _ => Device.construct_toJson errorHandling d) []
  have hresult : (updateArray "devices" (Device.construct errorHandling) p.toMembers []).result =
      .ok ([] ++ devices) := by
    rw [hdevices', Update.result]
  obtain ⟨complexModifications, hcomplex'⟩ :=
    ComplexModifications.construct_toJson h.complexModifications
  obtain ⟨fnFunctionKeys, hfn'⟩ := Device.updateObject_modifications hfn newFnFunctionKeys
  obtain ⟨simpleModifications, hsimple'⟩ := Device.updateObject_modifications hsimple {}
  simp only [construct, toJson, requiresObject, update_defaultFnFunctionKeys, JsonM.ok_bind,
    hvalues,
    updateObject_saved hparameters (SettingsObject.construct_toJson errorHandling p.parameters),
    updateObject_saved hkeyboard
      (SettingsObject.construct_toJson errorHandling p.virtualHidKeyboard),
    hresult, updateObject_saved hcomplex hcomplex', hfn', hsimple']
  refine ⟨_, rfl, fun s => ?_, fun s => ?_, fun s => ?_⟩
  · exact HelperValue.value_reload (h.values s) (by cases s <;> rfl)
  · exact SettingsObject.value_reload h.parameters s (by cases s; rfl)
  · exact SettingsObject.value_reload h.virtualHidKeyboard s (by cases s <;> rfl)

/-! ### Profiles that write nothing -/

/-- Every part of the profile is as a new profile without a name has it, and the JSON had no other
member. -/
structure Blank (p : Profile) : Prop where
  values : ∀ s, (p.values s).value = (p.values s).defaultValue
  parameters : p.parameters.Blank
  virtualHidKeyboard : p.virtualHidKeyboard.Blank
  devices : ∀ d ∈ p.devices, d.Blank
  simpleModifications : p.simpleModifications.Unsaved []
  fnFunctionKeys : p.fnFunctionKeys.Unsaved makeDefaultFnFunctionKeysJson
  complexModifications : p.complexModifications.Blank
  members : ∀ m ∈ p.members, m.1 ∈ knownKeys

omit [NaturalSort] in
theorem toJson_isEmpty_iff {errorHandling : ErrorHandling} {p : Profile}
    (h : p.Valid errorHandling) : p.toJson.isEmpty ↔ p.Blank := by
  have hentries : (∀ entry ∈ p.entries, entry.2 = none) ↔
      (∀ s, (p.values s).value = (p.values s).defaultValue) ∧ p.parameters.Blank ∧
        p.virtualHidKeyboard.Blank ∧ (∀ d ∈ p.devices, d.Blank) ∧
        p.simpleModifications.Unsaved [] ∧
        p.fnFunctionKeys.Unsaved makeDefaultFnFunctionKeysJson ∧ p.complexModifications.Blank := by
    rw [entries, List.forall_mem_append, HelperValues.entries_eq_none_iff]
    simp [SettingsObject.toJson_isEmpty_iff, SimpleModifications.toJson_isEmpty_iff,
      ComplexModifications.toJson_isEmpty_iff h.complexModifications, Device.toJson_isEmpty_iff]
  rw [toJson, Json.isEmpty, List.isEmpty_iff, toMembers, Json.putAll_eq_nil_iff p.nodup_keys,
    hentries, p.keys_entries]
  constructor
  · rintro ⟨⟨hvalues, hparameters, hkeyboard, hdevices, hsimple, hfn, hcomplex⟩, hmembers⟩
    exact ⟨hvalues, hparameters, hkeyboard, hdevices, hsimple, hfn, hcomplex, hmembers⟩
  · intro h
    exact ⟨⟨h.values, h.parameters, h.virtualHidKeyboard, h.devices, h.simpleModifications,
      h.fnFunctionKeys, h.complexModifications⟩, h.members⟩

/-! ### A new profile without a name -/

/-- The default function keys write nothing, if their texts are those that they are parsed from. -/
theorem unsaved_newFnFunctionKeys
    (hparse : ∀ pair ∈ defaultFnFunctionKeys,
      NlohmannJson.parse (NlohmannJson.dump (.object [("key_code", .string pair.1)])) =
          some (.object [("key_code", .string pair.1)]) ∧
        NlohmannJson.parse (NlohmannJson.dump (.array [.object [(pair.2.1, .string pair.2.2)]])) =
          some (.array [.object [(pair.2.1, .string pair.2.2)]])) :
    newFnFunctionKeys.Unsaved makeDefaultFnFunctionKeysJson := by
  refine SimpleModifications.unsaved_update ?_ ?_ (List.forall_mem_map.mpr hparse)
  · exact List.forall_mem_map.mpr fun pair _ => ⟨_, rfl, by simp⟩
  · exact List.forall_mem_map.mpr fun pair _ => ⟨_, rfl⟩

/-- A profile with only its own settings is blank when these have their defaults. -/
theorem blank_ofValues {errorHandling : ErrorHandling} {members : Json.Members}
    {values : HelperValues Setting} (hmembers : ∀ m ∈ members, m.1 ∈ knownKeys)
    (hvalues : ∀ s, (values s).value = (values s).defaultValue)
    (hfn : newFnFunctionKeys.Unsaved makeDefaultFnFunctionKeysJson) :
    (ofValues errorHandling members values).Blank where
  values := hvalues
  parameters := ⟨fun _ => rfl, by simp [ofValues, SettingsObject.default]⟩
  virtualHidKeyboard := ⟨fun _ => rfl, by simp [ofValues, SettingsObject.default]⟩
  devices := by simp [ofValues]
  simpleModifications := by
    simp [ofValues, SimpleModifications.Unsaved, SimpleModifications.firstPairs]
  fnFunctionKeys := hfn
  complexModifications := ComplexModifications.blank_default
  members := hmembers

/-- The text of an object with one string. -/
def keyText (type name : String) : String := "\x7b\"" ++ type ++ "\":\"" ++ name ++ "\"\x7d"

/-- The values that the default function keys are made of, with their texts. -/
def defaultTexts : List (String × Json) :=
  defaultFnFunctionKeys.flatMap fun (fromKey, toType, toName) => [
    (keyText "key_code" fromKey, .object [("key_code", .string fromKey)]),
    ("[" ++ keyText toType toName ++ "]", .array [.object [(toType, .string toName)]])]

omit [NlohmannJson] in
/-- With these texts the default function keys write nothing. -/
theorem unsaved_defaultTexts :
    let _ := NlohmannJson.ofTable defaultTexts
    newFnFunctionKeys.Unsaved makeDefaultFnFunctionKeysJson := by
  intro _
  have hnodup : (defaultTexts.map Prod.fst).Nodup := by decide
  have hdump : ∀ entry ∈ defaultTexts,
      (NlohmannJson.ofTable defaultTexts).dump entry.2 = entry.1 := by
    set_option maxRecDepth 10000 in decide
  have hparse (entry) (hentry : entry ∈ defaultTexts) :
      (NlohmannJson.ofTable defaultTexts).parse
        ((NlohmannJson.ofTable defaultTexts).dump entry.2) = some entry.2 := by
    rw [hdump entry hentry]
    exact NlohmannJson.parse_ofTable hnodup hentry
  refine unsaved_newFnFunctionKeys fun pair hpair =>
    ⟨hparse (keyText "key_code" pair.1, _) ?_,
      hparse ("[" ++ keyText pair.2.1 pair.2.2 ++ "]", _) ?_⟩
  · exact List.mem_flatMap.mpr ⟨pair, hpair, List.mem_cons_self⟩
  · exact List.mem_flatMap.mpr ⟨pair, hpair, List.mem_cons_of_mem _ List.mem_cons_self⟩

end Profile

end Karabiner.CoreConfiguration
