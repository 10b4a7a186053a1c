import Karabiner.JsonUtility
import Mathlib.Data.List.Nodup
import Mathlib.Logic.Function.Basic

/-!
# Settings that are saved only when they are not their default

`share/core_configuration/configuration_json_helper.hpp`.  A class of the configuration keeps the
JSON it was made from and a list of helper values.  `value_t` is one setting: reading takes the
member under its key, writing puts the member or removes it when the setting has its default value.
`object_t` and `array_t` do the same for parts of the configuration: a part that writes nothing is
removed, and so is an element of a list.

A class lists its settings in a `SettingFamily`: an enumeration with the key, the type and the
default of each setting.  `HelperValues` are the `value_t` of the whole class.

* `HelperValues.updateValue_saved` — **reading what was written** gives every setting the value that
  its type restores: a string loses its last newline, and milliseconds are read as `int`.
* `HelperValues.entries_eq_none_iff` — nothing is written exactly when every setting is a default.
-/

namespace Karabiner.CoreConfiguration

open JsonUtility

/-- `error_handling`. -/
inductive ErrorHandling
  | strict
  | loose
deriving DecidableEq, Repr

/-- The types of settings. -/
inductive SettingType
  /-- `bool`. -/
  | boolean
  /-- `int`. -/
  | integer
  /-- `std::chrono::milliseconds`. -/
  | milliseconds
  /-- `double`. -/
  | double
  /-- `std::string`. -/
  | string
deriving DecidableEq, Repr

namespace SettingType

/-- The values of a type. -/
abbrev Carrier : SettingType → Type
  | boolean => Bool
  | integer => Int32
  | milliseconds => Int64
  | double => ℚ
  | string => String

instance (t : SettingType) : DecidableEq t.Carrier := by
  cases t <;> dsimp only [Carrier] <;> infer_instance

/-- The value of a member, in `value_t::update_value`. -/
def read [NlohmannJson] (key : String) : (t : SettingType) → Json → JsonM t.Carrier
  | boolean, json => requiresBoolean json (quote key)
  | integer, json => return Int32.ofInt (← requiresNumber (Json.toInt 32) json (quote key))
  | milliseconds, json => return Int64.ofInt (← requiresNumber (Json.toInt 32) json (quote key))
  | double, json => requiresNumber Json.toRat json (quote key)
  | string, json => unmarshalString key json

/-- The member of a value, in `value_t::update_json`. -/
def write : (t : SettingType) → t.Carrier → Json
  | boolean, value => .boolean value
  | integer, value => .integer value.toInt
  | milliseconds, value => .integer value.toInt
  | double, value => .float value
  | string, value => marshalString value

/-- What is read from the member of a value. -/
def restore : (t : SettingType) → t.Carrier → t.Carrier
  | milliseconds, value => Int64.ofInt (value.toInt.bmod (2 ^ 32))
  | string, value =>
    if value.toList.getLast? = some '\n' then String.ofList value.toList.dropLast else value
  | boolean, value => value
  | integer, value => value
  | double, value => value

/-- A value that is written is read again, up to what its type cannot keep. -/
theorem read_write [NlohmannJson] (key : String) (t : SettingType) (value : t.Carrier) :
    t.read key (t.write value) = .ok (t.restore value) := by
  cases t with
  | boolean => rfl
  | double => rfl
  | string => exact unmarshalString_marshalString_eq key value
  | milliseconds => rfl
  | integer =>
      have hvalue : Int32.ofInt (value.toInt.bmod (2 ^ 32)) = value := by
        exact (congrArg Int32.ofInt (Int32.toInt_bmod value)).trans (Int32.ofInt_toInt value)
      exact congrArg Except.ok hvalue

/-- Milliseconds are restored if they are an `int`. -/
theorem restore_milliseconds_eq_iff (value : Int64) :
    restore .milliseconds value = value ↔ Json.FitsInt 32 value.toInt := by
  rw [← Json.toInt_integer_iff (by decide), ← Int64.toInt_inj]
  have hsmall : (Int64.ofInt (value.toInt.bmod (2 ^ 32))).toInt = value.toInt.bmod (2 ^ 32) := by
    have hlow := Int.le_bmod (x := value.toInt) (m := 2 ^ 32) (by decide)
    have hhigh := Int.bmod_lt (x := value.toInt) (m := 2 ^ 32) (by decide)
    exact Int64.toInt_ofInt_of_le (by omega) (by omega)
  simp only [restore, hsmall, Json.toInt, Option.some.injEq]

/-- A string is restored unless it ends with a newline. -/
theorem restore_string_eq_iff (value : String) :
    restore .string value = value ↔ value.toList.getLast? ≠ some '\n' := by
  simp only [restore]
  split_ifs with hlast
  · refine iff_of_false (fun h => ?_) (not_not.mpr hlast)
    have hlength := congrArg (fun s => s.toList.length) h
    have hpos := List.length_pos_of_mem (List.mem_of_getLast? hlast)
    simp only [String.toList_ofList, List.length_dropLast] at hlength
    omega
  · simp [hlast]

end SettingType

/-! ### One setting -/

/-- `value_origin`. -/
inductive ValueOrigin
  | defaultValue
  | json
deriving DecidableEq, Repr

/-- `value_t`. -/
structure HelperValue (t : SettingType) where
  value : t.Carrier
  defaultValue : t.Carrier
  origin : ValueOrigin

namespace HelperValue

variable {t : SettingType}

/-- A setting starts with its default value. -/
def make (defaultValue : t.Carrier) : HelperValue t := ⟨defaultValue, defaultValue, .defaultValue⟩

/-- `set_default_value`. -/
def setDefaultValue (defaultValue : t.Carrier) (h : HelperValue t) : HelperValue t where
  value := if h.origin = .defaultValue then defaultValue else h.value
  defaultValue := defaultValue
  origin := h.origin

/-- A value that was read. -/
def setJsonValue (value : t.Carrier) (h : HelperValue t) : HelperValue t :=
  { h with value := value, origin := .json }

/-- `update_value`.  A value that cannot be read is skipped unless errors are handled strictly. -/
def updateValue [NlohmannJson] (errorHandling : ErrorHandling) (key : String)
    (members : Json.Members) (h : HelperValue t) : JsonM (HelperValue t) :=
  match members.lookup key with
  | none => .ok h
  | some json =>
    match t.read key json, errorHandling with
    | .ok value, _ => .ok (h.setJsonValue value)
    | .error error, .strict => .error error
    | .error _, .loose => .ok h

/-- What `update_json` puts under the key. -/
def saved (h : HelperValue t) : Option Json :=
  if h.value ≠ h.defaultValue then some (t.write h.value) else none

/-- The setting that reading makes of what was written for a setting. -/
def reload (written h : HelperValue t) : HelperValue t :=
  if written.value = written.defaultValue then h else h.setJsonValue (t.restore written.value)

/-- A value is left out if it is the default. -/
theorem saved_eq_none_iff {h : HelperValue t} : h.saved = none ↔ h.value = h.defaultValue := by
  unfold saved
  split_ifs with hvalue
  · simpa using hvalue
  · simpa using hvalue

/-- Reading what a value has saved restores it. -/
theorem updateValue_saved [NlohmannJson] (errorHandling : ErrorHandling) {key : String}
    {members : Json.Members} {written : HelperValue t} (hsaved : members.lookup key = written.saved)
    (h : HelperValue t) :
    h.updateValue errorHandling key members = .ok (written.reload h) := by
  unfold updateValue reload
  rw [hsaved, saved]
  by_cases hvalue : written.value = written.defaultValue
  · simp [hvalue]
  · simp [hvalue, SettingType.read_write]

/-- The member under the key is missing, or can be read, or errors are skipped. -/
def Readable [NlohmannJson] (errorHandling : ErrorHandling) (t : SettingType) (key : String)
    (members : Json.Members) : Prop :=
  ∀ json, members.lookup key = some json → errorHandling = .strict →
    ∃ value, t.read key json = .ok value

/-- Whether a setting can be read does not depend on its value. -/
theorem exists_updateValue_iff [NlohmannJson] {errorHandling : ErrorHandling} {key : String}
    {members : Json.Members} (h : HelperValue t) :
    (∃ h', h.updateValue errorHandling key members = .ok h') ↔
      Readable errorHandling t key members := by
  unfold updateValue Readable
  cases members.lookup key with
  | none => simp
  | some json =>
      simp only [Option.some.injEq, forall_eq']
      cases t.read key json with
      | ok value => simp
      | error error => cases errorHandling <;> simp

/-- An update leaves the default as it is. -/
theorem defaultValue_updateValue [NlohmannJson] {errorHandling : ErrorHandling} {key : String}
    {members : Json.Members} {h h' : HelperValue t}
    (hupdate : h.updateValue errorHandling key members = .ok h') :
    h'.defaultValue = h.defaultValue := by
  unfold updateValue at hupdate
  split at hupdate
  · obtain rfl := Except.ok.inj hupdate
    rfl
  · split at hupdate
    · obtain rfl := Except.ok.inj hupdate
      rfl
    · cases hupdate
    · obtain rfl := Except.ok.inj hupdate
      rfl

/-- A setting whose default is kept has the restored value after it is saved and read. -/
theorem value_reload {written : HelperValue t} {defaultValue : t.Carrier}
    (hdefault : written.defaultValue = defaultValue)
    (hrestore : t.restore defaultValue = defaultValue) :
    (written.reload (make defaultValue)).value = t.restore written.value := by
  unfold reload
  split_ifs with hvalue
  · rw [hvalue, hdefault, hrestore]
    rfl
  · rfl

end HelperValue

/-! ### The settings of a class -/

/-- The settings of a class, in the order in which they are added to its helper values. -/
class SettingFamily (ι : Type) where
  key : ι → String
  type : ι → SettingType
  default : (s : ι) → (type s).Carrier
  all : List ι
  mem_all : ∀ s, s ∈ all
  nodup_keys : (all.map key).Nodup

/-- The `value_t` of all settings of a class. -/
abbrev HelperValues (ι : Type) [SettingFamily ι] : Type :=
  (s : ι) → HelperValue (SettingFamily.type s)

namespace HelperValues

open SettingFamily

variable {ι : Type} [DecidableEq ι] [SettingFamily ι]

/-- All settings have their default value. -/
def make : HelperValues ι := fun s => .make (default s)

/-- Assign the value of a setting. -/
def setValue (s : ι) (value : (type s).Carrier) (values : HelperValues ι) : HelperValues ι :=
  Function.update values s { values s with value := value }

/-- `helper_values::set_default_value`. -/
def setDefaultValue (s : ι) (defaultValue : (type s).Carrier) (values : HelperValues ι) :
    HelperValues ι :=
  Function.update values s ((values s).setDefaultValue defaultValue)

/-- `helper_values::update_value`. -/
def updateValue [NlohmannJson] (errorHandling : ErrorHandling) (members : Json.Members)
    (values : HelperValues ι) : JsonM (HelperValues ι) :=
  (all : List ι).foldlM (fun values s => do
    let value ← (values s).updateValue errorHandling (key s) members
    return Function.update values s value) values

omit [DecidableEq ι] in
/-- `helper_values::update_json`: what is put under each key. -/
def entries (values : HelperValues ι) : List (String × Option Json) :=
  (all : List ι).map fun s => (key s, (values s).saved)

omit [DecidableEq ι] in
theorem keys_entries (values : HelperValues ι) :
    (entries values).map Prod.fst = (all : List ι).map key := by
  simp [entries, Function.comp_def]

omit [DecidableEq ι] in
theorem mem_entries (values : HelperValues ι) (s : ι) :
    (key s, (values s).saved) ∈ entries values :=
  List.mem_map_of_mem (mem_all s)

omit [DecidableEq ι] in
/-- Nothing is written exactly when every setting has its default value. -/
theorem entries_eq_none_iff {values : HelperValues ι} :
    (∀ entry ∈ entries values, entry.2 = none) ↔
      ∀ s, (values s).value = (values s).defaultValue := by
  simp only [entries, List.forall_mem_map, HelperValue.saved_eq_none_iff]
  exact ⟨fun h s => h s (mem_all s), fun h s _ => h s⟩

/-- The settings are read one by one. -/
theorem updateValue_eq_ok [NlohmannJson] {errorHandling : ErrorHandling} {members : Json.Members}
    {values values' : HelperValues ι}
    (h : ∀ s, (values s).updateValue errorHandling (key s) members = .ok (values' s)) :
    updateValue errorHandling members values = .ok values' := by
  have hfold : ∀ (settings : List ι) (current : HelperValues ι), settings.Nodup →
      (∀ s, current s = if s ∈ settings then values s else values' s) →
      settings.foldlM (fun values s => do
        let value ← (values s).updateValue errorHandling (key s) members
        return Function.update values s value) current = .ok values' := by
    intro settings
    induction settings with
    | nil =>
        intro current _ hcurrent
        exact congrArg Except.ok (funext fun s => by simpa using hcurrent s)
    | cons s settings ih =>
        intro current hnodup hcurrent
        obtain ⟨hs, hsettings⟩ := List.nodup_cons.mp hnodup
        have hhead : current s = values s := by simp [hcurrent s]
        rw [List.foldlM_cons, hhead, h s]
        refine ih _ hsettings fun other => ?_
        by_cases hother : other = s
        · subst hother
          simp [hs]
        · simp [hother, hcurrent other]
  exact hfold all values (List.Nodup.of_map key nodup_keys) fun s => by simp [mem_all s]

/-- Whether the settings can be read does not depend on their values. -/
theorem exists_updateValue_iff [NlohmannJson] {errorHandling : ErrorHandling}
    {members : Json.Members} (values : HelperValues ι) :
    (∃ values', updateValue errorHandling members values = .ok values') ↔
      ∀ s : ι, HelperValue.Readable errorHandling (type s) (key s) members := by
  constructor
  · have hfold : ∀ (settings : List ι) (current values' : HelperValues ι),
        settings.foldlM (fun values s => do
          let value ← (values s).updateValue errorHandling (key s) members
          return Function.update values s value) current = .ok values' →
        ∀ s ∈ settings, HelperValue.Readable errorHandling (type s) (key s) members := by
      intro settings
      induction settings with
      | nil => simp
      | cons s settings ih =>
          intro current values' h
          rw [List.foldlM_cons, JsonM.bind_eq_ok] at h
          obtain ⟨next, hhead, htail⟩ := h
          obtain ⟨value, hvalue, -⟩ := JsonM.bind_eq_ok.mp hhead
          have hreadable := (HelperValue.exists_updateValue_iff (current s)).mp ⟨value, hvalue⟩
          exact List.forall_mem_cons.mpr ⟨hreadable, ih next values' htail⟩
    rintro ⟨values', h⟩ s
    exact hfold all values values' h s (mem_all s)
  · intro h
    choose values' hvalues' using
      fun s => (HelperValue.exists_updateValue_iff (values s)).mpr (h s)
    exact ⟨values', updateValue_eq_ok hvalues'⟩

/-- Every setting has the default that its class gives it. -/
def KeepsDefaults (values : HelperValues ι) : Prop :=
  ∀ s, (values s).defaultValue = default s

omit [DecidableEq ι] in
/-- New values have their defaults. -/
theorem keepsDefaults_make : KeepsDefaults (make : HelperValues ι) := fun _ => rfl

/-- Assigning a value leaves the defaults as they are. -/
theorem defaultValue_setValue (values : HelperValues ι) (s : ι) (value : (type s).Carrier)
    (other : ι) : (values.setValue s value other).defaultValue = (values other).defaultValue := by
  unfold setValue
  by_cases hother : other = s
  · subst hother
    rw [Function.update_self]
  · rw [Function.update_of_ne hother]

/-- Setting a value leaves the defaults as they are. -/
theorem KeepsDefaults.setValue {values : HelperValues ι} (h : KeepsDefaults values) (s : ι)
    (value : (type s).Carrier) : KeepsDefaults (values.setValue s value) := fun other =>
  (defaultValue_setValue values s value other).trans (h other)

/-- Reading leaves the defaults as they are. -/
theorem KeepsDefaults.updateValue [NlohmannJson] {errorHandling : ErrorHandling}
    {members : Json.Members} {values values' : HelperValues ι} (hvalues : KeepsDefaults values)
    (h : values.updateValue errorHandling members = .ok values') : KeepsDefaults values' := by
  have hfold : ∀ (settings : List ι) (current values' : HelperValues ι), KeepsDefaults current →
      settings.foldlM (fun values s => do
        let value ← (values s).updateValue errorHandling (key s) members
        return Function.update values s value) current = .ok values' → KeepsDefaults values' := by
    intro settings
    induction settings with
    | nil =>
        intro current values' hcurrent h
        obtain rfl := Except.ok.inj h
        exact hcurrent
    | cons s settings ih =>
        intro current values' hcurrent h
        rw [List.foldlM_cons, JsonM.bind_eq_ok] at h
        obtain ⟨next, hhead, htail⟩ := h
        obtain ⟨value, hvalue, rfl⟩ := JsonM.bind_pure_eq_ok.mp hhead
        refine ih _ values' (fun other => ?_) htail
        by_cases hother : other = s
        · subst hother
          rw [Function.update_self, HelperValue.defaultValue_updateValue hvalue, hcurrent other]
        · rw [Function.update_of_ne hother, hcurrent other]
  exact hfold all values values' hvalues h

/-- Nothing is read from an object without members. -/
@[simp] theorem updateValue_nil [NlohmannJson] (errorHandling : ErrorHandling)
    (values : HelperValues ι) : updateValue errorHandling [] values = .ok values :=
  updateValue_eq_ok fun _ => rfl

/-- **Reading what was written** restores every setting. -/
theorem updateValue_saved [NlohmannJson] (errorHandling : ErrorHandling) {members : Json.Members}
    (written : HelperValues ι) (hsaved : ∀ s, members.lookup (key s) = (written s).saved)
    (values : HelperValues ι) :
    updateValue errorHandling members values =
      .ok fun s => (written s).reload (values s) :=
  updateValue_eq_ok fun s => HelperValue.updateValue_saved errorHandling (hsaved s) (values s)

end HelperValues

/-! ### Classes that have only settings -/

/-- A class with the JSON it was made from and its settings. -/
structure SettingsObject (ι : Type) [SettingFamily ι] where
  members : Json.Members
  values : HelperValues ι

namespace SettingsObject

open SettingFamily

variable {ι : Type} [SettingFamily ι]

/-- All settings have their default. -/
def default : SettingsObject ι := ⟨[], .make⟩

/-- The members of `to_json`. -/
def toMembers (o : SettingsObject ι) : Json.Members := Json.putAll o.values.entries o.members

/-- `to_json`. -/
def toJson (o : SettingsObject ι) : Json := .object o.toMembers

/-- Every setting has its default, and the JSON had no other member. -/
structure Blank (o : SettingsObject ι) : Prop where
  values : ∀ s, (o.values s).value = (o.values s).defaultValue
  members : ∀ m ∈ o.members, m.1 ∈ (all : List ι).map key

theorem nodup_keys (o : SettingsObject ι) : (o.values.entries.map Prod.fst).Nodup :=
  o.values.keys_entries ▸ SettingFamily.nodup_keys

/-- Nothing is written if nothing is to be kept. -/
theorem toMembers_eq_nil_iff {o : SettingsObject ι} : o.toMembers = [] ↔ o.Blank := by
  rw [toMembers, Json.putAll_eq_nil_iff o.nodup_keys, HelperValues.entries_eq_none_iff,
    HelperValues.keys_entries]
  exact ⟨fun ⟨hvalues, hmembers⟩ => ⟨hvalues, hmembers⟩, fun h => ⟨h.values, h.members⟩⟩

theorem toJson_isEmpty_iff {o : SettingsObject ι} : o.toJson.isEmpty ↔ o.Blank := by
  rw [← toMembers_eq_nil_iff, toJson, Json.isEmpty, List.isEmpty_iff]

/-- Each setting is found under its key. -/
theorem lookup_toMembers (o : SettingsObject ι) (s : ι) :
    o.toMembers.lookup (key s) = (o.values s).saved :=
  Json.lookup_putAll o.nodup_keys (o.values.mem_entries s) o.members

variable [NlohmannJson] [DecidableEq ι]

/-- Assign the value of a setting. -/
def setValue (s : ι) (value : (type s).Carrier) (o : SettingsObject ι) : SettingsObject ι :=
  { o with values := o.values.setValue s value }

/-- The constructor from JSON. -/
def construct (errorHandling : ErrorHandling) (json : Json) : JsonM (SettingsObject ι) := do
  let members ← requiresObject json "json"
  return ⟨members, ← HelperValues.updateValue errorHandling members .make⟩

/-- What `construct` makes of what was written. -/
def reload (o : SettingsObject ι) : SettingsObject ι where
  members := o.toMembers
  values := fun s => (o.values s).reload (.make (SettingFamily.default s))

/-- **What is written makes an object again.** -/
theorem construct_toJson (errorHandling : ErrorHandling) (o : SettingsObject ι) :
    construct errorHandling o.toJson = .ok o.reload := by
  have hvalues :=
    HelperValues.updateValue_saved errorHandling o.values o.lookup_toMembers .make
  simp only [construct, toJson, requiresObject, JsonM.ok_bind, hvalues]
  rfl

omit [NlohmannJson] [DecidableEq ι] in
/-- A setting is restored, also in an object that wrote nothing and is made anew. -/
theorem value_reload {o : SettingsObject ι} (hdefaults : o.values.KeepsDefaults) (s : ι)
    (hrestore : (type s).restore (SettingFamily.default s) = SettingFamily.default s) :
    ((if o.toJson.isEmpty then default else o.reload).values s).value =
      (type s).restore (o.values s).value := by
  split_ifs with hempty
  · rw [(toJson_isEmpty_iff.mp hempty).values s, hdefaults s, hrestore]
    rfl
  · exact HelperValue.value_reload (hdefaults s) hrestore

/-- What is constructed has the defaults. -/
theorem keepsDefaults_of_construct {errorHandling : ErrorHandling} {json : Json}
    {o : SettingsObject ι} (h : construct errorHandling json = .ok o) :
    o.values.KeepsDefaults := by
  obtain ⟨members, -, h⟩ := JsonM.bind_eq_ok.mp h
  obtain ⟨values, hvalues, rfl⟩ := JsonM.bind_pure_eq_ok.mp h
  exact HelperValues.keepsDefaults_make.updateValue hvalues

@[simp] theorem construct_object_nil (errorHandling : ErrorHandling) :
    construct errorHandling (.object []) = .ok (default : SettingsObject ι) := by
  simp [construct, requiresObject, default]

end SettingsObject

/-! ### Parts of the configuration -/

/-- What a function that changes an object leaves behind, with the exception that ended it. -/
structure Update (α : Type) where
  value : α
  error : Option JsonError := none

/-- The result, for a caller that does not catch the exception. -/
def Update.result {α : Type} (u : Update α) : JsonM α :=
  match u.error with
  | some error => .error error
  | none => .ok u.value

/-- An update without an error gives its value. -/
theorem Update.result_eq_ok {α : Type} {u : Update α} (h : u.error = none) :
    u.result = .ok u.value := by
  rw [result, h]

section

variable {α : Type}

/-- `array_t::update_value`, over the elements: it stops at the first that cannot be made. -/
def pushAll (construct : Json → JsonM α) (values : List α) : List Json → Update (List α)
  | [] => { value := values }
  | json :: elements =>
    match construct json with
    | .ok value => pushAll construct (values ++ [value]) elements
    | .error error => { value := values, error := some error }

/-- Every value was there before or is made from an element. -/
theorem exists_of_mem_pushAll {construct : Json → JsonM α} {values : List α} {elements : List Json}
    {value : α} (h : value ∈ (pushAll construct values elements).value) :
    value ∈ values ∨ ∃ json, construct json = .ok value := by
  induction elements generalizing values with
  | nil => exact .inl h
  | cons json elements ih =>
      unfold pushAll at h
      split at h
      · next made hmade =>
          rcases ih h with hmem | hmem
          · rcases List.mem_append.mp hmem with hmem | hmem
            · exact .inl hmem
            · exact .inr ⟨json, List.mem_singleton.mp hmem ▸ hmade⟩
          · exact .inr hmem
      · exact .inl h

/-- Elements that can all be made are added in their order. -/
theorem exists_pushAll {construct : Json → JsonM α} {elements : List Json}
    (h : ∀ json ∈ elements, ∃ value, construct json = .ok value) (values : List α) :
    ∃ added, pushAll construct values elements = { value := values ++ added } ∧
      List.Forall₂ (fun json value => construct json = .ok value) elements added := by
  induction elements generalizing values with
  | nil => exact ⟨[], by simp [pushAll], .nil⟩
  | cons json elements ih =>
      obtain ⟨⟨value, hvalue⟩, hrest⟩ := List.forall_mem_cons.mp h
      obtain ⟨added, hpush, hadded⟩ := ih hrest (values ++ [value])
      exact ⟨value :: added, by simp [pushAll, hvalue, hpush], .cons hvalue hadded⟩

/-- `object_t::update_value`, for a JSON with these members. -/
def updateObject (key : String) (construct : Json → JsonM α) (members : Json.Members)
    (value : α) : JsonM α :=
  match members.lookup key with
  | none => .ok value
  | some json => atPath (quote key) (construct json)

/-- `array_t::update_value`, for a JSON with these members. -/
def updateArray [NlohmannJson] (key : String) (construct : Json → JsonM α) (members : Json.Members)
    (values : List α) : Update (List α) :=
  match members.lookup key with
  | none => { value := values }
  | some json =>
    match requiresArray json (quote key) with
    | .ok elements =>
      pushAll (fun json => atPath (quote key ++ " entry") (construct json)) values elements
    | .error error => { value := values, error := some error }

/-- The elements of an array have been there or have been constructed. -/
theorem exists_of_mem_updateArray [NlohmannJson] {key : String} {construct : Json → JsonM α}
    {members : Json.Members} {values : List α} {value : α}
    (h : value ∈ (updateArray key construct members values).value) :
    value ∈ values ∨ ∃ json, construct json = .ok value := by
  unfold updateArray at h
  split at h
  · exact .inl h
  · split at h
    · exact (exists_of_mem_pushAll h).imp_right fun ⟨json, hjson⟩ => ⟨json, atPath_eq_ok.mp hjson⟩
    · exact .inl h

/-- What `object_t::update_json` puts under its key. -/
def savedObject (json : Json) : Option Json := if json.isEmpty then none else some json

/-- What `array_t::update_json` puts under its key. -/
def savedArray (elements : List Json) : Option Json :=
  savedObject (.array (elements.filter fun json => !json.isEmpty))

@[simp] theorem savedObject_eq_none_iff {json : Json} : savedObject json = none ↔ json.isEmpty := by
  simp [savedObject]

@[simp] theorem savedArray_eq_none_iff {elements : List Json} :
    savedArray elements = none ↔ ∀ json ∈ elements, json.isEmpty := by
  simp [savedArray, Json.isEmpty, List.filter_eq_nil_iff]

/-- A part that can be made from what it writes is read back, unless it wrote nothing. -/
theorem updateObject_saved {key : String} {construct : Json → JsonM α} {members : Json.Members}
    {json : Json} (hsaved : members.lookup key = savedObject json) {reloaded : α}
    (hconstruct : construct json = .ok reloaded) (value : α) :
    updateObject key construct members value = .ok (if json.isEmpty then value else reloaded) := by
  unfold updateObject
  rw [hsaved, savedObject]
  split_ifs with hempty
  · rfl
  · simp [hconstruct]

/-- **The elements that write something are read back**, in their order. -/
theorem updateArray_saved [NlohmannJson] {key : String} {construct : Json → JsonM α}
    {members : Json.Members} {elements : List Json}
    (hsaved : members.lookup key = savedArray elements)
    (hconstruct : ∀ json ∈ elements, ∃ value, construct json = .ok value) (values : List α) :
    ∃ added, updateArray key construct members values = { value := values ++ added } ∧
      List.Forall₂ (fun json value => construct json = .ok value)
        (elements.filter fun json => !json.isEmpty) added := by
  have hread : ∀ json ∈ elements.filter fun json => !json.isEmpty,
      ∃ value, atPath (quote key ++ " entry") (construct json) = .ok value := by
    intro json hjson
    obtain ⟨value, hvalue⟩ := hconstruct json (List.mem_filter.mp hjson).1
    exact ⟨value, atPath_eq_ok.mpr hvalue⟩
  unfold updateArray
  rw [hsaved, savedArray]
  generalize elements.filter (fun json => !json.isEmpty) = saved at hread ⊢
  cases saved with
  | nil => exact ⟨[], by simp [savedObject, Json.isEmpty], .nil⟩
  | cons first rest =>
      obtain ⟨added, hpush, hadded⟩ := exists_pushAll hread values
      exact ⟨added, hpush, hadded.imp fun _ _ h => atPath_eq_ok.mp h⟩

end

end Karabiner.CoreConfiguration
