import Karabiner.CoreConfiguration.ConfigurationJsonHelper

/-!
# Device identifiers

`share/types/device_identifiers.hpp`: what tells one device from another, with the JSON it was read
from.  Writing puts every field over that JSON and removes the fields that have their default.

* `fromJson_toJson` — **identifiers are read back** as they were.
-/

namespace Karabiner.CoreConfiguration

open JsonUtility

/-- `device_identifiers`. -/
structure DeviceIdentifiers where
  members : Json.Members := []
  vendorId : UInt64 := 0
  productId : UInt64 := 0
  isKeyboard : Bool := false
  isPointingDevice : Bool := false
  isGamePad : Bool := false
  isConsumer : Bool := false
  isVirtualDevice : Bool := false
  deviceAddress : String := ""

namespace DeviceIdentifiers

/-- The constructor from fields.  The address counts only where there are no other identifiers. -/
def make (vendorId productId : UInt64)
    (isKeyboard isPointingDevice isGamePad isConsumer isVirtualDevice : Bool)
    (deviceAddress : String) : DeviceIdentifiers where
  vendorId := vendorId
  productId := productId
  isKeyboard := isKeyboard
  isPointingDevice := isPointingDevice
  isGamePad := isGamePad
  isConsumer := isConsumer
  isVirtualDevice := isVirtualDevice
  deviceAddress := if vendorId = 0 && productId = 0 then deviceAddress else ""

/-- The address of identifiers that were made is kept when they are made again. -/
theorem make_deviceAddress (vendorId productId : UInt64)
    (isKeyboard isPointingDevice isGamePad isConsumer isVirtualDevice : Bool)
    (deviceAddress : String) :
    make vendorId productId isKeyboard isPointingDevice isGamePad isConsumer isVirtualDevice
        (if vendorId = 0 && productId = 0 then deviceAddress else "") =
      make vendorId productId isKeyboard isPointingDevice isGamePad isConsumer isVirtualDevice
        deviceAddress := by
  unfold make
  split_ifs <;> rfl

/-- `operator==`. -/
def same (d other : DeviceIdentifiers) : Bool :=
  d.vendorId = other.vendorId && d.productId = other.productId &&
    d.isKeyboard = other.isKeyboard && d.isPointingDevice = other.isPointingDevice &&
    d.isGamePad = other.isGamePad && d.isConsumer = other.isConsumer &&
    d.isVirtualDevice = other.isVirtualDevice && d.deviceAddress = other.deviceAddress

/-- Identifiers are the same if they differ at most in the JSON they were read from. -/
theorem same_iff {d other : DeviceIdentifiers} :
    d.same other = true ↔ { d with members := [] } = { other with members := [] } := by
  simp [same, and_assoc]

theorem same_comm (d other : DeviceIdentifiers) : d.same other = other.same d :=
  Bool.eq_iff_iff.mpr (same_iff.trans (eq_comm.trans same_iff.symm))

/-- A field is written unless it has its default. -/
def saveField {α : Type} [DecidableEq α] (write : α → Json) (default value : α) : Option Json :=
  if value ≠ default then some (write value) else none

/-- What `to_json` puts under each key. -/
def entries (d : DeviceIdentifiers) : List (String × Option Json) := [
  ("vendor_id", saveField (fun id : UInt64 => .integer id.toNat) 0 d.vendorId),
  ("product_id", saveField (fun id : UInt64 => .integer id.toNat) 0 d.productId),
  ("is_keyboard", saveField .boolean false d.isKeyboard),
  ("is_pointing_device", saveField .boolean false d.isPointingDevice),
  ("is_game_pad", saveField .boolean false d.isGamePad),
  ("is_consumer", saveField .boolean false d.isConsumer),
  ("is_virtual_device", saveField .boolean false d.isVirtualDevice),
  ("device_address", saveField .string "" d.deviceAddress)]

/-- `to_json`. -/
def toJson (d : DeviceIdentifiers) : Json := .object (Json.putAll d.entries d.members)

section

variable [NlohmannJson]

/-- A field of an object, or its default. -/
def readField {α : Type} (read : Json → String → JsonM α) (default : α) (members : Json.Members)
    (key : String) : JsonM α :=
  match members.lookup key with
  | none => .ok default
  | some json => read json (quote key)

/-- A number of type `uint64_t`. -/
def requiresId (json : Json) (name : String) : JsonM UInt64 :=
  return UInt64.ofNat (← requiresNumber (Json.toNat 64) json name)

/-- The constructor from JSON.  It takes the members in the order of their keys. -/
def fromJson (json : Json) : JsonM DeviceIdentifiers := do
  let members ← requiresObject json "json"
  let deviceAddress ← readField requiresString "" members "device_address"
  let isConsumer ← readField requiresBoolean false members "is_consumer"
  let isGamePad ← readField requiresBoolean false members "is_game_pad"
  let isKeyboard ← readField requiresBoolean false members "is_keyboard"
  let isPointingDevice ← readField requiresBoolean false members "is_pointing_device"
  let isVirtualDevice ← readField requiresBoolean false members "is_virtual_device"
  let productId ← readField requiresId 0 members "product_id"
  let vendorId ← readField requiresId 0 members "vendor_id"
  return { members, vendorId, productId, isKeyboard, isPointingDevice, isGamePad, isConsumer,
           isVirtualDevice, deviceAddress }

omit [NlohmannJson] in
theorem nodup_keys (d : DeviceIdentifiers) : (d.entries.map Prod.fst).Nodup := by
  simp [entries]

omit [NlohmannJson] in
/-- A field that is found as it was saved is read as it was. -/
theorem readField_saveField {α : Type} [DecidableEq α] {write : α → Json}
    {read : Json → String → JsonM α} {default value : α} {members : Json.Members} {key : String}
    (hread : ∀ value name, read (write value) name = .ok value)
    (hsaved : members.lookup key = saveField write default value) :
    readField read default members key = .ok value := by
  unfold readField
  rw [hsaved, saveField]
  split_ifs with hvalue
  · exact hread value _
  · simpa using Eq.symm (not_not.mp hvalue)

theorem requiresId_integer (id : UInt64) (name : String) :
    requiresId (.integer id.toNat) name = .ok id := by
  have hnumber : requiresNumber (Json.toNat 64) (.integer id.toNat) name = .ok id.toNat :=
    requiresNumber_eq_ok.mpr (Json.toNat_integer id.toNat_lt)
  simp [requiresId, hnumber]

omit [NlohmannJson] in
theorem readField_entry (d : DeviceIdentifiers) {α : Type} [DecidableEq α] (key : String)
    (read : Json → String → JsonM α) (write : α → Json) (default value : α)
    (hread : ∀ value name, read (write value) name = .ok value)
    (hentry : (key, saveField write default value) ∈ d.entries) :
    readField read default (Json.putAll d.entries d.members) key = .ok value :=
  readField_saveField hread (Json.lookup_putAll d.nodup_keys hentry d.members)

/-- **Identifiers are read back**, with the JSON that was written. -/
theorem fromJson_toJson (d : DeviceIdentifiers) :
    fromJson d.toJson = .ok { d with members := Json.putAll d.entries d.members } := by
  have hflag (key : String) (value : Bool)
      (hentry : (key, saveField .boolean false value) ∈ d.entries) :
      readField requiresBoolean false (Json.putAll d.entries d.members) key = .ok value :=
    readField_entry d key requiresBoolean .boolean false value (fun _ _ => rfl) hentry
  have hid (key : String) (value : UInt64)
      (hentry : (key, saveField (fun id : UInt64 => .integer id.toNat) 0 value) ∈ d.entries) :
      readField requiresId 0 (Json.putAll d.entries d.members) key = .ok value :=
    readField_entry d key requiresId _ 0 value requiresId_integer hentry
  have haddress := readField_entry d "device_address" requiresString .string "" d.deviceAddress
    (fun _ _ => rfl) (by simp [entries])
  have hconsumer := hflag "is_consumer" d.isConsumer (by simp [entries])
  have hgamePad := hflag "is_game_pad" d.isGamePad (by simp [entries])
  have hkeyboard := hflag "is_keyboard" d.isKeyboard (by simp [entries])
  have hpointing := hflag "is_pointing_device" d.isPointingDevice (by simp [entries])
  have hvirtual := hflag "is_virtual_device" d.isVirtualDevice (by simp [entries])
  have hproduct := hid "product_id" d.productId (by simp [entries])
  have hvendor := hid "vendor_id" d.vendorId (by simp [entries])
  simp only [fromJson, toJson, requiresObject, JsonM.ok_bind, JsonM.pure_eq_ok, haddress, hconsumer,
    hgamePad, hkeyboard, hpointing, hvirtual, hproduct, hvendor]

end

end DeviceIdentifiers

end Karabiner.CoreConfiguration
