import Karabiner.CoreConfiguration.DeviceIdentifiers

/-!
# Device properties

`share/device_properties.hpp`: what is known of a device that is connected, of which the event queue
needs only a few fields.  The constructor derives some fields from others.  `to_json` writes also
what is derived, and `make_device_properties` derives it again.

* `make_parameters` — a second construction derives the same.
* `makeDeviceProperties_toJson` — **the properties of every device are read back** as they were.
-/

namespace Karabiner.Devices

open JsonUtility
open CoreConfiguration (DeviceIdentifiers)
open CoreConfiguration.DeviceIdentifiers (saveField readField requiresId)

/-- A text has another in it, as `std::string::find` looks for it. -/
def containsText (pattern text : String) : Bool :=
  text.toList.tails.any fun tail => pattern.toList.isPrefixOf tail

/-- `pqrs::string::starts_with`. -/
def startsWith (text start : String) : Bool := start.toList.isPrefixOf text.toList

/-- `iokit_utility::is_karabiner_virtual_hid_device`. -/
def isKarabinerVirtualHidDevice (manufacturer product : String) : Bool :=
  manufacturer = "pqrs.org" &&
    (startsWith product "Karabiner DriverKit VirtualHIDKeyboard" ||
      startsWith product "Karabiner DriverKit VirtualHIDPointing")

/-- `device_properties::initialization_parameters`. -/
structure InitializationParameters where
  deviceId : UInt64 := 0
  vendorId : UInt64 := 0
  productId : UInt64 := 0
  locationId : UInt64 := 0
  manufacturer : String := ""
  product : String := ""
  serialNumber : String := ""
  transport : String := ""
  deviceAddress : String := ""
  isKeyboard : Bool := false
  isPointingDevice : Bool := false
  isGamePad : Bool := false
  isConsumer : Bool := false

/-- `device_properties`. -/
structure DeviceProperties where
  deviceId : UInt64
  deviceIdentifiers : DeviceIdentifiers
  locationId : UInt64
  manufacturer : String
  product : String
  serialNumber : String
  transport : String
  isBuiltInKeyboard : Bool
  isBuiltInPointingDevice : Bool
  isBuiltInTouchBar : Bool
  isApple : Bool

namespace DeviceProperties

/-! ### Construction -/

/-- The Touch Bar. -/
def isTouchBar (vendorId productId : UInt64) : Bool := vendorId = 0x05ac && productId = 0x8600

/-- The name of a device, where the Touch Bar may have none. -/
def overrideName (vendorId productId : UInt64) (touchBarName name : String) : String :=
  if isTouchBar vendorId productId && name.isEmpty then touchBarName else name

/-- The product is one of the Touch Bar. -/
def isTouchBarProduct (product : String) : Bool :=
  product = "Apple Internal Touch Bar" || product = "TouchBarUserDevice"

/-- The last part of the constructor: which of the devices of a Mac it is. -/
def classify (parameters : InitializationParameters) (deviceIdentifiers : DeviceIdentifiers)
    (manufacturer product : String) : DeviceProperties :=
  let isInternal := !isTouchBarProduct product && containsText "Apple Internal " product
  -- A device that is connected by SPI has neither identifiers nor a product.
  let isFifo := parameters.transport = "FIFO"
  { deviceId := parameters.deviceId
    deviceIdentifiers
    locationId := parameters.locationId
    manufacturer
    product
    serialNumber := parameters.serialNumber
    transport := parameters.transport
    isBuiltInKeyboard :=
      (isInternal && parameters.isKeyboard && !parameters.isPointingDevice) ||
        (isFifo && parameters.isKeyboard)
    isBuiltInPointingDevice :=
      (isInternal && !parameters.isKeyboard && parameters.isPointingDevice) ||
        (isFifo && parameters.isPointingDevice)
    isBuiltInTouchBar := isTouchBarProduct product
    isApple :=
      !deviceIdentifiers.isVirtualDevice &&
        (parameters.vendorId = 0x05ac || parameters.vendorId = 0x004c ||
          containsText "Apple Internal " product ||
          (manufacturer = "Apple" && product = "Headset")) }

/-- The constructor. -/
def make (parameters : InitializationParameters) : DeviceProperties :=
  classify parameters
    (DeviceIdentifiers.make parameters.vendorId parameters.productId
      parameters.isKeyboard parameters.isPointingDevice parameters.isGamePad parameters.isConsumer
      (isKarabinerVirtualHidDevice parameters.manufacturer parameters.product)
      parameters.deviceAddress)
    (overrideName parameters.vendorId parameters.productId "Apple Inc." parameters.manufacturer)
    (overrideName parameters.vendorId parameters.productId "Apple Internal Touch Bar"
      parameters.product)

/-! ### Reading and writing -/

/-- What `to_json` puts under each key. -/
def entries (p : DeviceProperties) : List (String × Option Json) := [
  ("device_id", some (.integer p.deviceId.toNat)),
  ("device_identifiers", some p.deviceIdentifiers.toJson),
  ("location_id", saveField (fun id : UInt64 => .integer id.toNat) 0 p.locationId),
  ("manufacturer", saveField .string "" p.manufacturer),
  ("product", saveField .string "" p.product),
  ("serial_number", saveField .string "" p.serialNumber),
  ("transport", saveField .string "" p.transport),
  ("is_built_in_keyboard", saveField .boolean false p.isBuiltInKeyboard),
  ("is_built_in_pointing_device", saveField .boolean false p.isBuiltInPointingDevice),
  ("is_built_in_touch_bar", saveField .boolean false p.isBuiltInTouchBar),
  ("is_apple", saveField .boolean false p.isApple)]

/-- `to_json`. -/
def toJson (p : DeviceProperties) : Json := .object (Json.putAll p.entries [])

variable [NlohmannJson]

/-- The parameters that `make_device_properties` reads, in the order of the keys.  What is derived
is not read. -/
def readParameters (members : Json.Members) : JsonM InitializationParameters := do
  let deviceId ← readField requiresId 0 members "device_id"
  let identifiers ←
    readField (fun json _ => DeviceIdentifiers.fromJson json) {} members "device_identifiers"
  let locationId ← readField requiresId 0 members "location_id"
  let manufacturer ← readField requiresString "" members "manufacturer"
  let product ← readField requiresString "" members "product"
  let serialNumber ← readField requiresString "" members "serial_number"
  let transport ← readField requiresString "" members "transport"
  return { deviceId, locationId, manufacturer, product, serialNumber, transport
           vendorId := identifiers.vendorId
           productId := identifiers.productId
           deviceAddress := identifiers.deviceAddress
           isKeyboard := identifiers.isKeyboard
           isPointingDevice := identifiers.isPointingDevice
           isGamePad := identifiers.isGamePad
           isConsumer := identifiers.isConsumer }

/-- `make_device_properties`, from JSON. -/
def makeDeviceProperties (json : Json) : JsonM DeviceProperties := do
  let members ← requiresObject json "json"
  return make (← readParameters members)

/-! ### What is derived is derived again -/

omit [NlohmannJson] in
/-- The parameters that are read back. -/
def parameters (p : DeviceProperties) : InitializationParameters where
  deviceId := p.deviceId
  vendorId := p.deviceIdentifiers.vendorId
  productId := p.deviceIdentifiers.productId
  locationId := p.locationId
  manufacturer := p.manufacturer
  product := p.product
  serialNumber := p.serialNumber
  transport := p.transport
  deviceAddress := p.deviceIdentifiers.deviceAddress
  isKeyboard := p.deviceIdentifiers.isKeyboard
  isPointingDevice := p.deviceIdentifiers.isPointingDevice
  isGamePad := p.deviceIdentifiers.isGamePad
  isConsumer := p.deviceIdentifiers.isConsumer

omit [NlohmannJson] in
theorem overrideName_overrideName (vendorId productId : UInt64) (touchBarName name : String) :
    overrideName vendorId productId touchBarName
        (overrideName vendorId productId touchBarName name) =
      overrideName vendorId productId touchBarName name := by
  by_cases hname : (isTouchBar vendorId productId && name.isEmpty) = true
  · simp only [overrideName, if_pos hname, ite_self]
  · simp only [overrideName, if_neg hname]

omit [NlohmannJson] in
/-- A device without a manufacturer or a product is not virtual, and neither is the Touch Bar. -/
theorem isKarabinerVirtualHidDevice_overrideName (vendorId productId : UInt64)
    (manufacturer product : String) :
    isKarabinerVirtualHidDevice (overrideName vendorId productId "Apple Inc." manufacturer)
        (overrideName vendorId productId "Apple Internal Touch Bar" product) =
      isKarabinerVirtualHidDevice manufacturer product := by
  have hmanufacturer (product : String) : isKarabinerVirtualHidDevice "Apple Inc." product =
      isKarabinerVirtualHidDevice "" product := rfl
  have hproduct (manufacturer : String) :
      isKarabinerVirtualHidDevice manufacturer "Apple Internal Touch Bar" =
        isKarabinerVirtualHidDevice manufacturer "" :=
    congrArg (decide (manufacturer = "pqrs.org") && ·) (by decide)
  unfold overrideName
  split_ifs with hm hp hp
  · rw [hmanufacturer, hproduct, String.isEmpty_iff.mp (Bool.and_eq_true_iff.mp hm).2,
      String.isEmpty_iff.mp (Bool.and_eq_true_iff.mp hp).2]
  · rw [hmanufacturer, String.isEmpty_iff.mp (Bool.and_eq_true_iff.mp hm).2]
  · rw [hproduct, String.isEmpty_iff.mp (Bool.and_eq_true_iff.mp hp).2]
  · rfl

omit [NlohmannJson] in
/-- **A second construction derives the same.** -/
theorem make_parameters (q : InitializationParameters) : make (make q).parameters = make q := by
  have hidentifiers : DeviceIdentifiers.make q.vendorId q.productId q.isKeyboard q.isPointingDevice
      q.isGamePad q.isConsumer
      (isKarabinerVirtualHidDevice (make q).manufacturer (make q).product)
      (make q).deviceIdentifiers.deviceAddress = (make q).deviceIdentifiers := by
    have hvirtual : isKarabinerVirtualHidDevice (make q).manufacturer (make q).product =
        isKarabinerVirtualHidDevice q.manufacturer q.product :=
      isKarabinerVirtualHidDevice_overrideName ..
    rw [hvirtual]
    exact DeviceIdentifiers.make_deviceAddress ..
  have hmanufacturer : overrideName q.vendorId q.productId "Apple Inc." (make q).manufacturer =
      (make q).manufacturer := overrideName_overrideName ..
  have hproduct : overrideName q.vendorId q.productId "Apple Internal Touch Bar" (make q).product =
      (make q).product := overrideName_overrideName ..
  calc make (make q).parameters
      = classify q
          (DeviceIdentifiers.make q.vendorId q.productId q.isKeyboard q.isPointingDevice
            q.isGamePad q.isConsumer
            (isKarabinerVirtualHidDevice (make q).manufacturer (make q).product)
            (make q).deviceIdentifiers.deviceAddress)
          (overrideName q.vendorId q.productId "Apple Inc." (make q).manufacturer)
          (overrideName q.vendorId q.productId "Apple Internal Touch Bar" (make q).product) := rfl
    _ = classify q (make q).deviceIdentifiers (make q).manufacturer (make q).product := by
          rw [hidentifiers, hmanufacturer, hproduct]
    _ = make q := rfl

/-! ### The round trip -/

omit [NlohmannJson] in
theorem nodup_keys (p : DeviceProperties) : (p.entries.map Prod.fst).Nodup := by
  simp [entries]

theorem readParameters_toJson (p : DeviceProperties) :
    readParameters (Json.putAll p.entries []) = .ok p.parameters := by
  have hlookup {key : String} {value : Option Json} (hentry : (key, value) ∈ p.entries) :
      (Json.putAll p.entries []).lookup key = value :=
    Json.lookup_putAll p.nodup_keys hentry []
  have htext (key value : String) (hentry : (key, saveField .string "" value) ∈ p.entries) :
      readField requiresString "" (Json.putAll p.entries []) key = .ok value :=
    DeviceIdentifiers.readField_saveField (fun _ _ => rfl) (hlookup hentry)
  have hdeviceId : readField requiresId 0 (Json.putAll p.entries []) "device_id" =
      .ok p.deviceId := by
    unfold readField
    have hentry : ("device_id", some (.integer p.deviceId.toNat)) ∈ p.entries := List.mem_cons_self
    rw [hlookup hentry]
    exact DeviceIdentifiers.requiresId_integer p.deviceId _
  have hidentifiers : readField (fun json _ => DeviceIdentifiers.fromJson json) {}
      (Json.putAll p.entries []) "device_identifiers" =
        .ok { p.deviceIdentifiers with
          members := Json.putAll p.deviceIdentifiers.entries p.deviceIdentifiers.members } := by
    unfold readField
    have hentry : ("device_identifiers", some p.deviceIdentifiers.toJson) ∈ p.entries :=
      List.mem_cons_of_mem _ List.mem_cons_self
    rw [hlookup hentry]
    exact DeviceIdentifiers.fromJson_toJson p.deviceIdentifiers
  have hlocationId : readField requiresId 0 (Json.putAll p.entries []) "location_id" =
      .ok p.locationId :=
    DeviceIdentifiers.readField_saveField DeviceIdentifiers.requiresId_integer
      (hlookup (by simp [entries]))
  have hmanufacturer := htext "manufacturer" p.manufacturer (by simp [entries])
  have hproduct := htext "product" p.product (by simp [entries])
  have hserialNumber := htext "serial_number" p.serialNumber (by simp [entries])
  have htransport := htext "transport" p.transport (by simp [entries])
  simp only [readParameters, hdeviceId, hidentifiers, hlocationId, hmanufacturer, hproduct,
    hserialNumber, htransport, JsonM.ok_bind]
  rfl

/-- **The properties of every device are read back** as they were, also those that are derived. -/
theorem makeDeviceProperties_toJson (q : InitializationParameters) :
    makeDeviceProperties (make q).toJson = .ok (make q) := by
  unfold makeDeviceProperties toJson
  rw [requiresObject, JsonM.ok_bind, readParameters_toJson, JsonM.ok_bind, make_parameters]
  rfl

end DeviceProperties

end Karabiner.Devices
