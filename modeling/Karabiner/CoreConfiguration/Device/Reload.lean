import Karabiner.CoreConfiguration.Device

/-!
# Devices that are saved and loaded

A device leaves a setting out when it has the default of its kind, and the default of the kind is
set again after the settings have been read.  Identifiers that were left out, since nothing else
was saved, are known to whoever loads the device.

* `Consistent` — what holds of a device that was loaded, whatever its setters are given.
* `deviceSettings_reload` — **every boolean and numeric setting survives saving and loading**, and
  so does every member with a key that a device does not know.
-/

namespace Karabiner.CoreConfiguration.Device

open JsonUtility

/-! ### The defaults of a kind of devices -/

/-- The default of a setting that depends on the kind of the device. -/
def specialDefault (identifiers : DeviceIdentifiers) : (s : Setting) → s.type.Carrier
  | .ignore => isIgnoredByDefault identifiers
  | .manipulateCapsLockLed => identifiers.isKeyboard
  | s => s.default

/-- The default of the setting is replaced. -/
def hasSpecialDefault (identifiers : DeviceIdentifiers) : Setting → Bool
  | .ignore => isIgnoredByDefault identifiers
  | .manipulateCapsLockLed => identifiers.isKeyboard
  | _ => false

theorem specialDefault_of_not {identifiers : DeviceIdentifiers} {s : Setting}
    (h : hasSpecialDefault identifiers s = false) : specialDefault identifiers s = s.default := by
  cases s <;> first | rfl | exact h

theorem setSpecialDefaultValues_apply (identifiers : DeviceIdentifiers)
    (values : HelperValues Setting) (s : Setting) :
    setSpecialDefaultValues identifiers values s =
      if hasSpecialDefault identifiers s
      then (values s).setDefaultValue (specialDefault identifiers s) else values s := by
  unfold setSpecialDefaultValues HelperValues.setDefaultValue
  by_cases hignore : s = .ignore
  · subst hignore
    cases hspecial : isIgnoredByDefault identifiers <;> cases identifiers.isKeyboard <;>
      simp [hasSpecialDefault, specialDefault, hspecial, Function.update_of_ne]
  · by_cases hled : s = .manipulateCapsLockLed
    · subst hled
      cases hspecial : identifiers.isKeyboard <;> cases isIgnoredByDefault identifiers <;>
        simp [hasSpecialDefault, specialDefault, hspecial, Function.update_of_ne]
    · have hnone : hasSpecialDefault identifiers s = false := by
        cases s <;> first | rfl | exact absurd rfl hignore | exact absurd rfl hled
      rw [hnone, if_neg Bool.false_ne_true]
      cases isIgnoredByDefault identifiers <;> cases identifiers.isKeyboard <;>
        simp [Function.update_of_ne, hignore, hled]

/-- Settings that have their defaults get those of the kind. -/
theorem defaultValue_setSpecialDefaultValues (identifiers : DeviceIdentifiers)
    {values : HelperValues Setting} (h : values.KeepsDefaults) (s : Setting) :
    (setSpecialDefaultValues identifiers values s).defaultValue = specialDefault identifiers s := by
  rw [setSpecialDefaultValues_apply]
  cases hspecial : hasSpecialDefault identifiers s with
  | true => rfl
  | false => exact (h s).trans (specialDefault_of_not hspecial).symm

/-- Trimmed texts do not end with a newline. -/
theorem restore_trimCopy (text : String) :
    SettingType.restore .string (trimCopy text) = trimCopy text := by
  rw [SettingType.restore_string_eq_iff, trimCopy, String.toList_ofList]
  intro hlast
  have hne : (text.toList.dropWhile isSpace).rdropWhile isSpace ≠ [] := fun hnil => by
    rw [hnil] at hlast
    cases hlast
  have hkept := List.rdropWhile_last_not isSpace _ hne
  rw [List.getLast?_eq_some_getLast hne] at hlast
  rw [Option.some.inj hlast] at hkept
  exact hkept (by decide)

theorem restore_specialDefault (identifiers : DeviceIdentifiers) (s : Setting) :
    s.type.restore (specialDefault identifiers s) = specialDefault identifiers s := by
  cases s with
  | gamePadStickXFormula
  | gamePadStickYFormula
  | gamePadStickVerticalWheelFormula
  | gamePadStickHorizontalWheelFormula => exact restore_trimCopy _
  | _ => rfl

/-- What is read from a setting that was saved. -/
theorem value_setSpecialDefaultValues {identifiers : DeviceIdentifiers}
    {values : HelperValues Setting} {s : Setting}
    (hdefault : (values s).defaultValue = specialDefault identifiers s) :
    (setSpecialDefaultValues identifiers
      (fun s => (values s).reload (.make (SettingFamily.default s))) s).value =
        s.type.restore (values s).value := by
  rw [setSpecialDefaultValues_apply]
  unfold HelperValue.reload
  by_cases hvalue : (values s).value = (values s).defaultValue
  -- It was left out, and the default that is set again is the value it had.
  · rw [if_pos hvalue, hvalue, hdefault, restore_specialDefault]
    cases hspecial : hasSpecialDefault identifiers s with
    | true => rfl
    | false => exact (specialDefault_of_not hspecial).symm
  -- It was written, and a default does not replace a value that was read.
  · rw [if_neg hvalue]
    cases hasSpecialDefault identifiers s <;> rfl

/-! ### Devices that were loaded -/

/-- What holds of a device that was loaded from an object with these members. -/
structure Consistent (members : Json.Members) (d : Device) : Prop where
  members : d.members = members
  defaultValue : ∀ s, (d.values s).defaultValue = specialDefault d.identifiers s
  coordinated : ((d.values .treatAsBuiltInKeyboard).value &&
    (d.values .disableBuiltInKeyboardIfExists).value) = false

/-- The settings that exclude one another are coordinated, and nothing else changes. -/
theorem consistent_coordinateBetweenProperties {members : Json.Members} {d : Device}
    (hmembers : d.members = members)
    (hdefault : ∀ s, (d.values s).defaultValue = specialDefault d.identifiers s) :
    Consistent members d.coordinateBetweenProperties := by
  unfold coordinateBetweenProperties
  split_ifs with hboth
  · refine ⟨hmembers, fun s => ?_, ?_⟩
    · exact (HelperValues.defaultValue_setValue ..).trans (hdefault s)
    · simp [HelperValues.setValue]
  · exact ⟨hmembers, hdefault, Bool.eq_false_iff.mpr hboth⟩

theorem coordinateBetweenProperties_eq_self {d : Device}
    (h : ((d.values .treatAsBuiltInKeyboard).value &&
      (d.values .disableBuiltInKeyboardIfExists).value) = false) :
    d.coordinateBetweenProperties = d := by
  unfold coordinateBetweenProperties
  rw [h]
  rfl

section

variable [NlohmannJson] [NaturalSort]

theorem Consistent.of_construct {errorHandling : ErrorHandling} {json : Json} {d : Device}
    (h : construct errorHandling json = .ok d) :
    ∃ members, json = .object members ∧ Consistent members d := by
  obtain ⟨_, -, h⟩ := JsonM.bind_eq_ok.mp h
  obtain ⟨members, hmembers, h⟩ := JsonM.bind_eq_ok.mp h
  obtain ⟨values, hvalues, h⟩ := JsonM.bind_eq_ok.mp h
  obtain ⟨_, -, h⟩ := JsonM.bind_eq_ok.mp h
  obtain ⟨identifiers, -, h⟩ := JsonM.bind_eq_ok.mp h
  obtain ⟨_, -, rfl⟩ := JsonM.bind_pure_eq_ok.mp h
  refine ⟨members, requiresObject_eq_ok.mp hmembers, ?_⟩
  refine consistent_coordinateBetweenProperties rfl fun s => ?_
  exact defaultValue_setSpecialDefaultValues identifiers
    (HelperValues.keepsDefaults_make.updateValue hvalues) s

/-- What one call leaves. -/
theorem Consistent.edit {members : Json.Members} {d : Device} (h : Consistent members d)
    (edit : Edit) : Consistent members (edit.apply d) := by
  cases edit with
  | set s value =>
      refine consistent_coordinateBetweenProperties h.members fun other => ?_
      exact (HelperValues.defaultValue_setValue ..).trans (h.defaultValue other)
  | simpleModifications edit => exact ⟨h.members, h.defaultValue, h.coordinated⟩
  | fnFunctionKeys edit => exact ⟨h.members, h.defaultValue, h.coordinated⟩

/-- What any calls leave. -/
theorem Consistent.edits {members : Json.Members} {d : Device} (h : Consistent members d)
    (edits : List Edit) : Consistent members (edits.foldl Edit.apply d) := by
  induction edits generalizing d with
  | nil => exact h
  | cons edit edits ih => exact ih (h.edit edit)

/-! ### Saving and loading -/

omit [NaturalSort] in
/-- The members that are saved, with the identifiers also where they are left out. -/
def membersWithIdentifiers (d : Device) : Json.Members :=
  match d.toMembers.lookup "identifiers" with
  | some _ => d.toMembers
  | none => Json.set "identifiers" d.identifiers.toJson d.toMembers

omit [NaturalSort] in
theorem lookup_membersWithIdentifiers {d : Device} {key : String} {value : Option Json}
    (hkey : key ≠ "identifiers") (hentry : (key, value) ∈ d.entries) :
    d.membersWithIdentifiers.lookup key = value := by
  have hlookup := lookup_toMembers hkey hentry
  unfold membersWithIdentifiers
  split
  · exact hlookup
  · rw [Json.lookup_set_of_ne hkey, hlookup]

omit [NaturalSort] in
theorem lookup_membersWithIdentifiers_identifiers (d : Device) :
    d.membersWithIdentifiers.lookup "identifiers" = some d.identifiers.toJson := by
  unfold membersWithIdentifiers
  split
  · next heq =>
      rcases d.lookup_toMembers_identifiers with hlookup | hlookup
      · exact hlookup
      · rw [hlookup] at heq
        cases heq
  · exact Json.lookup_set_self ..

omit [NaturalSort] in
/-- A member with a key that is not known is as in the JSON that was loaded. -/
theorem lookup_toMembers_of_notMem (d : Device) {key : String} (hkey : key ∉ knownKeys) :
    d.toMembers.lookup key = d.members.lookup key := by
  have hentries : key ∉ d.entries.map Prod.fst := d.keys_entries ▸ hkey
  have hall : d.allMembers.lookup key = d.members.lookup key :=
    Json.lookup_putAll_of_notMem hentries d.members
  have hne : key ≠ "identifiers" := fun h => hkey (h ▸ by decide)
  unfold toMembers
  split_ifs
  · rw [Json.lookup_erase_of_ne hne, hall]
  · exact hall

/-- What is loaded from what was saved has the settings as their types restore them. -/
theorem construct_membersWithIdentifiers {members : Json.Members} {d : Device}
    (h : Consistent members d) (errorHandling : ErrorHandling) :
    ∃ reloaded, construct errorHandling (.object d.membersWithIdentifiers) = .ok reloaded ∧
      ∀ s, (reloaded.values s).value = s.type.restore (d.values s).value := by
  have hidentifiers : updateObject "identifiers" DeviceIdentifiers.fromJson
      d.membersWithIdentifiers {} =
        .ok { d.identifiers with
          members := Json.putAll d.identifiers.entries d.identifiers.members } := by
    unfold updateObject
    rw [lookup_membersWithIdentifiers_identifiers]
    exact atPath_eq_ok.mpr (DeviceIdentifiers.fromJson_toJson d.identifiers)
  obtain ⟨simpleModifications, fnFunctionKeys, hconstruct⟩ := construct_of_saved errorHandling
    (fun s => lookup_membersWithIdentifiers (key_ne_identifiers s)
      (List.mem_append_left _ (HelperValues.mem_entries d.values s))) hidentifiers
    (lookup_membersWithIdentifiers (by decide) (List.mem_append_right _ (by simp)))
    (lookup_membersWithIdentifiers (by decide) (List.mem_append_right _ (by simp)))
  have hvalue (s : Setting) : (setSpecialDefaultValues d.identifiers
      (fun s => (d.values s).reload (.make (SettingFamily.default s))) s).value =
        s.type.restore (d.values s).value :=
    value_setSpecialDefaultValues (h.defaultValue s)
  -- The two settings were coordinated before they were saved, so they stay as they are.
  refine ⟨_, hconstruct, fun s => ?_⟩
  rw [coordinateBetweenProperties_eq_self]
  · exact hvalue s
  · exact (congrArg₂ and (hvalue .treatAsBuiltInKeyboard)
      (hvalue .disableBuiltInKeyboardIfExists)).trans h.coordinated

/-- **Every boolean and numeric setting survives saving and loading**, and a member with a key that
is not known is saved as it was loaded. -/
theorem deviceSettings_reload {errorHandling : ErrorHandling} {json : Json} {loaded : Device}
    (hload : construct errorHandling json = .ok loaded) (edits : List Edit)
    (reloadErrorHandling : ErrorHandling) :
    let saved := edits.foldl Edit.apply loaded
    (∃ reloaded, construct reloadErrorHandling (.object saved.membersWithIdentifiers) =
        .ok reloaded ∧
      ∀ s : Setting, s.type ≠ .string → (reloaded.values s).value = (saved.values s).value) ∧
    ∃ members, json = .object members ∧
      ∀ key, key ∉ knownKeys → saved.toMembers.lookup key = members.lookup key := by
  intro saved
  obtain ⟨members, hjson, hloaded⟩ := Consistent.of_construct hload
  have hsaved : Consistent members saved := hloaded.edits edits
  refine ⟨?_, members, hjson, fun key hkey => ?_⟩
  · obtain ⟨reloaded, hconstruct, hvalues⟩ :=
      construct_membersWithIdentifiers hsaved reloadErrorHandling
    refine ⟨reloaded, hconstruct, fun s hs => (hvalues s).trans ?_⟩
    cases s <;> first | rfl | exact absurd rfl hs
  · rw [lookup_toMembers_of_notMem saved hkey, hsaved.members]

end

/-- A pointing device that is not ignored, against the default of its kind. -/
theorem deviceSettings_reload_pointingDevice :
    let _ := NlohmannJson.ofTable []
    let _ : NaturalSort := .byLength
    ∃ loaded, construct .strict (.object [
        ("identifiers", .object [("is_pointing_device", .boolean true)]),
        ("ignore", .boolean false),
        ("note", .string "desk")]) = .ok loaded ∧
      let saved := [Edit.set .mouseFlipX true].foldl Edit.apply loaded
      ∃ reloaded, construct .loose (.object saved.membersWithIdentifiers) = .ok reloaded ∧
        (reloaded.values .ignore).value = (saved.values .ignore).value := by
  intro _ _
  obtain ⟨loaded, hload⟩ : ∃ loaded, construct .strict (.object [
      ("identifiers", .object [("is_pointing_device", .boolean true)]),
      ("ignore", .boolean false),
      ("note", .string "desk")]) = .ok loaded := ⟨_, rfl⟩
  obtain ⟨⟨reloaded, hreload, hvalues⟩, -⟩ :=
    deviceSettings_reload hload [.set .mouseFlipX true] .loose
  exact ⟨loaded, hload, reloaded, hreload, hvalues .ignore (by decide)⟩

end Karabiner.CoreConfiguration.Device
