import Karabiner.CoreConfiguration.CoreConfiguration
import Karabiner.CoreConfiguration.Device.Reload

/-!
# Looking devices up

`profile::get_device`, which the grabber asks for the settings of a connected device.  A device that
the profile does not have is added with its identifiers alone, so a lookup changes the profile, but
not what any later lookup says.

* `deviceSetting_eq` — **what a lookup says**: the setting of the first device with these
  identifiers, or the default of the kind.
* `deviceSetting_getDevice` — a lookup does not change what another says.
-/

namespace Karabiner.CoreConfiguration

open JsonUtility

/-! ### A device that is added -/

namespace Device

theorem value_setSpecialDefaultValues_make (identifiers : DeviceIdentifiers) (s : Setting) :
    (setSpecialDefaultValues identifiers .make s).value = specialDefault identifiers s := by
  rw [setSpecialDefaultValues_apply]
  cases hspecial : hasSpecialDefault identifiers s with
  | true => rfl
  | false => exact (specialDefault_of_not hspecial).symm

/-- The defaults of a kind do not depend on the JSON of the identifiers. -/
theorem specialDefault_congr {identifiers other : DeviceIdentifiers}
    (h : identifiers.same other = true) : specialDefault identifiers = specialDefault other := by
  have heq := DeviceIdentifiers.same_iff.mp h
  have hignored : isIgnoredByDefault { identifiers with members := [] } =
      isIgnoredByDefault { other with members := [] } := by rw [heq]
  have hkeyboard : { identifiers with members := [] }.isKeyboard =
      { other with members := [] }.isKeyboard := by rw [heq]
  funext s
  cases s <;> first | exact hignored | exact hkeyboard | rfl

variable [NlohmannJson] [NaturalSort]

/-- The device that `get_device` adds. -/
theorem construct_identifiers (errorHandling : ErrorHandling) (identifiers : DeviceIdentifiers) :
    ∃ device, construct errorHandling (.object [("identifiers", identifiers.toJson)]) =
        .ok device ∧ device.identifiers.same identifiers = true ∧
      ∀ s, (device.values s).value = specialDefault identifiers s := by
  have hvalues : ∀ s : Setting, ([("identifiers", identifiers.toJson)] : Json.Members).lookup
      (SettingFamily.key s) = (HelperValue.make s.default).saved := by
    intro s
    have hkey := key_ne_identifiers s
    have hsaved : (HelperValue.make s.default).saved = none :=
      HelperValue.saved_eq_none_iff.mpr rfl
    rw [hsaved, List.lookup_cons, beq_false_of_ne hkey]
    rfl
  have hidentifiers : updateObject "identifiers" DeviceIdentifiers.fromJson
      [("identifiers", identifiers.toJson)] {} =
        .ok { identifiers with
          members := Json.putAll identifiers.entries identifiers.members } := by
    simp [updateObject, DeviceIdentifiers.fromJson_toJson]
  obtain ⟨simpleModifications, fnFunctionKeys, hconstruct⟩ := construct_of_saved errorHandling
    (d := { members := [], identifiers, values := .make, simpleModifications := {},
            fnFunctionKeys := {} }) hvalues hidentifiers rfl rfl
  have hmake : (fun s : Setting => (HelperValue.make s.default).reload (.make s.default)) =
      HelperValues.make := by
    funext s
    exact if_pos rfl
  have hdefault : specialDefault { identifiers with
      members := Json.putAll identifiers.entries identifiers.members } =
        specialDefault identifiers := specialDefault_congr (DeviceIdentifiers.same_iff.mpr rfl)
  have hvalue (s : Setting) : (setSpecialDefaultValues { identifiers with
      members := Json.putAll identifiers.entries identifiers.members }
        (fun s => (HelperValue.make s.default).reload (.make s.default)) s).value =
          specialDefault identifiers s := by
    rw [hmake, value_setSpecialDefaultValues_make, hdefault]
  refine ⟨_, hconstruct, ?_⟩
  rw [coordinateBetweenProperties_eq_self]
  · exact ⟨DeviceIdentifiers.same_iff.mpr rfl, hvalue⟩
  -- None of the two settings that exclude one another is on by default.
  · exact Bool.and_eq_false_imp.mpr fun htreat =>
      absurd ((hvalue .treatAsBuiltInKeyboard).symm.trans htreat) Bool.false_ne_true

end Device

/-! ### Lookups -/

namespace Profile

variable [NlohmannJson] [NaturalSort]

/-- The device that `get_device` returns. -/
def findDevice (identifiers : DeviceIdentifiers) (p : Profile) : Option Device :=
  (p.getDevice identifiers).devices.find? fun d => d.identifiers.same identifiers

/-- A setting of the device that `get_device` returns. -/
def deviceSetting (identifiers : DeviceIdentifiers) (s : Device.Setting) (p : Profile) :
    s.type.Carrier :=
  match p.findDevice identifiers with
  | some d => (d.values s).value
  | none => s.default

/-- `get_device` keeps the devices and may add one. -/
theorem devices_getDevice (identifiers : DeviceIdentifiers) (p : Profile) :
    ((p.devices.any fun d => d.identifiers.same identifiers) = true ∧
        (p.getDevice identifiers).devices = p.devices) ∨
      (p.devices.any fun d => d.identifiers.same identifiers) = false ∧
        ∃ device, (p.getDevice identifiers).devices = p.devices ++ [device] ∧
          device.identifiers.same identifiers = true ∧
          ∀ s, (device.values s).value = Device.specialDefault identifiers s := by
  unfold getDevice
  cases hany : p.devices.any fun d => d.identifiers.same identifiers with
  | true => exact .inl ⟨rfl, rfl⟩
  | false =>
      obtain ⟨device, hdevice, hsame, hvalues⟩ :=
        Device.construct_identifiers p.errorHandling identifiers
      exact .inr ⟨rfl, device, by simp [hdevice], hsame, hvalues⟩

/-- **What a lookup says**: the setting of the first device with these identifiers, or the default
of the kind. -/
theorem deviceSetting_eq (identifiers : DeviceIdentifiers) (s : Device.Setting) (p : Profile) :
    p.deviceSetting identifiers s =
      match p.devices.find? fun d => d.identifiers.same identifiers with
      | some d => (d.values s).value
      | none => Device.specialDefault identifiers s := by
  unfold deviceSetting findDevice
  rcases p.devices_getDevice identifiers with ⟨hany, hdevices⟩ | ⟨hany, d, hdevices, hsame, hvalues⟩
  · obtain ⟨d, hd, hsame⟩ := List.any_eq_true.mp hany
    rw [hdevices]
    cases hfind : p.devices.find? fun d => d.identifiers.same identifiers with
    | some d => rfl
    | none => exact absurd hsame (List.find?_eq_none.mp hfind d hd)
  · have hnone : (p.devices.find? fun d => d.identifiers.same identifiers) = none :=
      List.find?_eq_none.mpr (List.any_eq_false.mp hany)
    rw [hdevices, List.find?_append, hnone, List.find?_cons, hsame]
    exact hvalues s

/-- A lookup does not change what another says. -/
theorem deviceSetting_getDevice (identifiers other : DeviceIdentifiers) (s : Device.Setting)
    (p : Profile) :
    (p.getDevice other).deviceSetting identifiers s = p.deviceSetting identifiers s := by
  rw [deviceSetting_eq, deviceSetting_eq]
  rcases p.devices_getDevice other with ⟨-, hdevices⟩ | ⟨hany, d, hdevices, hsame, hvalues⟩
  · rw [hdevices]
  · rw [hdevices, List.find?_append]
    cases hfind : p.devices.find? fun d => d.identifiers.same identifiers with
    | some d => rfl
    | none =>
        rw [Option.none_or, List.find?_cons]
        cases hother : d.identifiers.same identifiers with
        | false => rfl
        | true =>
            have hkinds : Device.specialDefault other = Device.specialDefault identifiers :=
              (Device.specialDefault_congr hsame).symm.trans (Device.specialDefault_congr hother)
            exact (hvalues s).trans (congrFun hkinds s)

end Profile

end Karabiner.CoreConfiguration
