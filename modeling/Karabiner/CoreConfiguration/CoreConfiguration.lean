import Karabiner.CoreConfiguration.GlobalConfiguration
import Karabiner.CoreConfiguration.Profile
import Karabiner.Library.Machine

/-!
# The configuration

`share/core_configuration/core_configuration.hpp`: the configuration is read from `karabiner.json`,
changed by the operations on its list of profiles and by the setters of the profiles, and written
back.

The list holds pointers to profiles.  Here a profile stands beside its address, and a new profile
gets an address that was not given before, so that a profile can be followed while the list is
rearranged.

* `load` — the constructor, which keeps what was read before an error.
* `Action` — everything that is done to a loaded configuration.
* `run_valid` — what every reachable configuration satisfies.
-/

namespace Karabiner

open CoreConfiguration JsonUtility

/-- `core_configuration`. -/
structure CoreConfiguration where
  json : Json
  errorHandling : ErrorHandling
  loaded : Bool
  /-- The exception whose text is the parse error message. -/
  parseError : Option JsonError
  globalConfiguration : GlobalConfiguration
  machineSpecific : MachineSpecific
  /-- The profiles with their addresses. -/
  profiles : List (ℕ × Profile)
  /-- The address of the next profile that is made. -/
  nextAddress : ℕ

namespace CoreConfiguration

section

variable [NlohmannJson] [NaturalSort]

/-! ### Loading -/

/-- What is read from the members of `karabiner.json`. -/
structure Parts where
  globalConfiguration : GlobalConfiguration := .default
  machineSpecific : MachineSpecific := {}
  profiles : List Profile := []

/-- `helper_values::update_value` with all that it changed before an exception. -/
def readParts (errorHandling : ErrorHandling) (json : Json) : Update Parts :=
  match json with
  | .object members =>
    match updateObject "global" (SettingsObject.construct errorHandling) members .default with
    | .error error => { value := {}, error }
    | .ok globalConfiguration =>
      match updateObject "machine_specific" (MachineSpecific.construct errorHandling) members {}
      with
      | .error error => { value := { globalConfiguration }, error }
      | .ok machineSpecific =>
        let profiles := updateArray "profiles" (Profile.construct errorHandling) members []
        { value := { globalConfiguration, machineSpecific, profiles := profiles.value }
          error := profiles.error }
  -- There is no member to find, and the array requires an object.
  | _ => { value := {}, error := some (mustBe "json" "object" json) }

/-- What is read from the file, if anything. -/
def readDocument (errorHandling : ErrorHandling) : Option Json → Update Parts
  | some json => readParts errorHandling json
  | none => { value := {} }

/-- The profile of a configuration without profiles. -/
def defaultProfileJson : Json :=
  .object [("name", .string "Default profile"), ("selected", .boolean true)]

/-- `Fallbacks`. -/
def fallback (errorHandling : ErrorHandling) (profiles : List Profile) : List Profile :=
  match profiles, Profile.construct errorHandling defaultProfileJson with
  | [], .ok profile => [profile]
  | profiles, _ => profiles

/-- The constructor, for the JSON of the file; `none` if the file cannot be read as JSON, or is not
read at all. -/
def load (errorHandling : ErrorHandling) (document : Option Json) : CoreConfiguration :=
  let parts := readDocument errorHandling document
  let profiles := fallback errorHandling parts.value.profiles
  { json := document.getD (.object [])
    errorHandling
    loaded := document.isSome && parts.error.isNone
    parseError := parts.error
    globalConfiguration := parts.value.globalConfiguration
    machineSpecific := parts.value.machineSpecific
    profiles := (List.range profiles.length).zip profiles
    nextAddress := profiles.length }

/-! ### Writing -/

omit [NaturalSort] in
/-- What `to_json` puts under each key. -/
def entries (c : CoreConfiguration) : List (String × Option Json) := [
  ("global", savedObject c.globalConfiguration.toJson),
  ("machine_specific", savedObject c.machineSpecific.toJson),
  ("profiles", savedArray (c.profiles.map fun profile => profile.2.toJson))]

omit [NaturalSort] in
/-- `to_json`, which throws if the file was JSON but no object: a member is removed. -/
def toJson (c : CoreConfiguration) : Option Json :=
  match c.json with
  | .object members => some (.object (Json.putAll c.entries members))
  | _ => none

/-! ### Profiles -/

omit [NlohmannJson] [NaturalSort] in
/-- `get_selected_profile`: the first profile if none is selected. -/
def getSelectedProfile (c : CoreConfiguration) : Option (ℕ × Profile) :=
  (c.profiles.find? fun profile => profile.2.selected).or c.profiles.head?

omit [NlohmannJson] [NaturalSort] in
/-- `set_profile_name`. -/
def setProfileName (index : ℕ) (name : String) (c : CoreConfiguration) : CoreConfiguration :=
  { c with profiles := c.profiles.modify index fun profile => (profile.1, profile.2.setName name) }

omit [NlohmannJson] [NaturalSort] in
/-- `select_profile`. -/
def selectProfile (index : ℕ) (c : CoreConfiguration) : CoreConfiguration :=
  if index < c.profiles.length then
    { c with
      profiles := c.profiles.mapIdx fun i profile =>
        (profile.1, profile.2.setSelected (i = index)) }
  else c

omit [NlohmannJson] [NaturalSort] in
/-- Append a new profile. -/
def pushBack (profile : Profile) (c : CoreConfiguration) : CoreConfiguration :=
  { c with
    profiles := c.profiles ++ [(c.nextAddress, profile)]
    nextAddress := c.nextAddress + 1 }

/-- `push_back_profile`. -/
def pushBackProfile (c : CoreConfiguration) : CoreConfiguration :=
  match Profile.construct c.errorHandling (.object [("name", .string "New profile")]) with
  | .ok profile => c.pushBack profile
  | .error _ => c

/-- `duplicate_profile`. -/
def duplicateProfile (profile : Profile) (c : CoreConfiguration) : CoreConfiguration :=
  match Profile.construct c.errorHandling profile.toJson with
  | .ok profile => c.pushBack ((profile.setName (profile.name ++ " (copy)")).setSelected false)
  | .error _ => c

omit [NlohmannJson] [NaturalSort] in
/-- `erase_profile`. -/
def eraseProfile (index : ℕ) (c : CoreConfiguration) : CoreConfiguration :=
  if 1 < c.profiles.length then { c with profiles := c.profiles.eraseIdx index } else c

omit [NlohmannJson] [NaturalSort] in
/-- `move_profile`. -/
def moveProfile (sourceIndex destinationIndex : ℕ) (c : CoreConfiguration) : CoreConfiguration :=
  { c with
    profiles :=
      (VectorUtility.moveElement c.profiles sourceIndex destinationIndex).getD c.profiles }

end

/-- An operation on the list of profiles. -/
inductive Operation
  | setProfileName (index : ℕ) (name : String)
  | selectProfile (index : ℕ)
  | pushBackProfile
  | duplicateProfile (profile : Profile)
  | eraseProfile (index : ℕ)
  | moveProfile (sourceIndex destinationIndex : ℕ)

/-- What is done to a loaded configuration: an operation, or a call of one of its profiles. -/
inductive Action
  | operation (o : Operation)
  | profile (index : ℕ) (edit : Profile.Edit)

variable [NlohmannJson] [NaturalSort]

/-- The effect of an operation. -/
def operate (c : CoreConfiguration) : Operation → CoreConfiguration
  | .setProfileName index name => c.setProfileName index name
  | .selectProfile index => c.selectProfile index
  | .pushBackProfile => c.pushBackProfile
  | .duplicateProfile profile => c.duplicateProfile profile
  | .eraseProfile index => c.eraseProfile index
  | .moveProfile sourceIndex destinationIndex => c.moveProfile sourceIndex destinationIndex

/-- The effect of an action. -/
def act (c : CoreConfiguration) : Action → CoreConfiguration
  | .operation o => c.operate o
  | .profile index edit =>
    { c with profiles := c.profiles.modify index fun profile => (profile.1, edit.apply profile.2) }

/-! ### Valid configurations -/

/-- What every reachable configuration satisfies. -/
structure Valid (c : CoreConfiguration) : Prop where
  profiles : ∀ profile ∈ c.profiles, profile.2.Valid c.errorHandling
  machineSpecific : c.machineSpecific.Valid
  nonempty : c.profiles ≠ []
  nodup : (c.profiles.map Prod.fst).Nodup
  fresh : ∀ profile ∈ c.profiles, profile.1 < c.nextAddress

/-- What a document is read as is valid. -/
theorem valid_readDocument (errorHandling : ErrorHandling) (document : Option Json) :
    (∀ profile ∈ (readDocument errorHandling document).value.profiles,
      profile.Valid errorHandling) ∧
        (readDocument errorHandling document).value.machineSpecific.Valid := by
  have hnone : (∀ profile ∈ ({} : Parts).profiles, profile.Valid errorHandling) ∧
      ({} : Parts).machineSpecific.Valid :=
    ⟨by simp, MachineSpecific.valid_default⟩
  unfold readDocument
  split
  · unfold readParts
    split
    · split
      · exact hnone
      · split
        · exact hnone
        · next machineSpecific hmachine =>
            refine ⟨fun profile hprofile => ?_, ?_⟩
            · rcases exists_of_mem_updateArray hprofile with h | ⟨json, hjson⟩
              · cases h
              · exact .of_construct hjson
            · unfold updateObject at hmachine
              split at hmachine
              · obtain rfl := Except.ok.inj hmachine
                exact MachineSpecific.valid_default
              · exact .of_construct (atPath_eq_ok.mp hmachine)
    · exact hnone
  · exact hnone

/-- A configuration without profiles is given one profile, with a name. -/
theorem fallback_nil (errorHandling : ErrorHandling) :
    fallback errorHandling [] =
      [.ofValues errorHandling [("name", .string "Default profile"), ("selected", .boolean true)]
        (Profile.namedValues "Default profile" ⟨true, false, .json⟩)] := by
  unfold fallback
  rw [defaultProfileJson, Profile.construct_name_selected]

/-- A configuration that is loaded without profiles. -/
theorem load_eq_of_profiles_eq_nil {errorHandling : ErrorHandling} {document : Option Json}
    (h : (readDocument errorHandling document).value.profiles = []) :
    load errorHandling document = { load errorHandling document with
      profiles := (List.range 1).zip (fallback errorHandling [])
      nextAddress := 1 } := by
  simp only [load, h, fallback_nil]
  rfl

theorem fallback_ne_nil (errorHandling : ErrorHandling) (profiles : List Profile) :
    fallback errorHandling profiles ≠ [] := by
  unfold fallback
  rw [defaultProfileJson, Profile.construct_name_selected]
  cases profiles <;> simp

theorem valid_fallback {errorHandling : ErrorHandling} {profiles : List Profile}
    (h : ∀ profile ∈ profiles, profile.Valid errorHandling) :
    ∀ profile ∈ fallback errorHandling profiles, profile.Valid errorHandling := by
  unfold fallback
  split
  · next profile hprofile => simpa using Profile.Valid.of_construct hprofile
  · exact h

/-- What is loaded is valid, whatever the file holds. -/
theorem valid_load (errorHandling : ErrorHandling) (document : Option Json) :
    (load errorHandling document).Valid := by
  obtain ⟨hprofiles, hmachine⟩ := valid_readDocument errorHandling document
  have hvalid := valid_fallback hprofiles
  have hne := fallback_ne_nil errorHandling (readDocument errorHandling document).value.profiles
  constructor
  · exact fun profile hprofile => hvalid profile.2 (List.of_mem_zip hprofile).2
  · exact hmachine
  · intro hnil
    have hlength := congrArg List.length hnil
    simp [load, hne] at hlength
  · simp [load, List.map_fst_zip, List.nodup_range]
  · exact fun profile hprofile => List.mem_range.mp (List.of_mem_zip hprofile).1

omit [NaturalSort] in
/-- A new profile has a new address. -/
theorem Valid.pushBack {c : CoreConfiguration} (h : c.Valid) {profile : Profile}
    (hprofile : profile.Valid c.errorHandling) : (c.pushBack profile).Valid := by
  have hnew : c.nextAddress ∉ c.profiles.map Prod.fst := by
    rintro hmem
    obtain ⟨other, hother, heq⟩ := List.mem_map.mp hmem
    exact absurd (h.fresh other hother) (by omega)
  constructor
  · refine List.forall_mem_append.mpr ⟨h.profiles, ?_⟩
    rintro other hother
    obtain rfl := List.mem_singleton.mp hother
    exact hprofile
  · exact h.machineSpecific
  · simp [CoreConfiguration.pushBack]
  · rw [CoreConfiguration.pushBack, List.map_append]
    exact List.nodup_append.mpr ⟨h.nodup, List.nodup_singleton _, by grind⟩
  · intro other hother
    rcases List.mem_append.mp hother with hother | hother
    · exact Nat.lt_succ_of_lt (h.fresh other hother)
    · obtain rfl := List.mem_singleton.mp hother
      exact Nat.lt_succ_self _

omit [NaturalSort] in
/-- Profiles may change in their places. -/
theorem Valid.of_map_fst {c : CoreConfiguration} (h : c.Valid) {profiles : List (ℕ × Profile)}
    (haddresses : profiles.map Prod.fst = c.profiles.map Prod.fst)
    (hprofiles : ∀ profile ∈ profiles, profile.2.Valid c.errorHandling) :
    Valid { c with profiles := profiles } := by
  constructor
  · exact hprofiles
  · exact h.machineSpecific
  · rintro rfl
    exact h.nonempty (List.map_eq_nil_iff.mp haddresses.symm)
  · exact haddresses ▸ h.nodup
  · intro profile hprofile
    have hmem : profile.1 ∈ c.profiles.map Prod.fst := haddresses ▸ List.mem_map_of_mem hprofile
    obtain ⟨other, hother, heq⟩ := List.mem_map.mp hmem
    exact heq ▸ h.fresh other hother

omit [NaturalSort] in
/-- Changing one profile in a way that keeps it valid. -/
theorem Valid.modify {c : CoreConfiguration} (h : c.Valid) (index : ℕ) {f : Profile → Profile}
    (hf : ∀ profile : Profile, profile.Valid c.errorHandling → (f profile).Valid c.errorHandling) :
    Valid { c with
      profiles := c.profiles.modify index fun profile => (profile.1, f profile.2) } := by
  refine h.of_map_fst (List.ext_getElem? fun i => ?_) fun profile hprofile => ?_
  · rw [List.getElem?_map, List.getElem?_modify, List.getElem?_map]
    cases c.profiles[i]? with
    | none => rfl
    | some profile =>
        simp only [Option.map_eq_map, Option.map_some]
        split_ifs <;> rfl
  · obtain ⟨i, hi⟩ := List.mem_iff_getElem?.mp hprofile
    rw [List.getElem?_modify] at hi
    obtain ⟨other, hother, rfl⟩ := Option.map_eq_some_iff.mp hi
    have hvalid := h.profiles other (List.mem_of_getElem? hother)
    split_ifs
    · exact hf other.2 hvalid
    · exact hvalid

omit [NaturalSort] in
/-- Selecting a profile keeps the configuration valid. -/
theorem Valid.selectProfile {c : CoreConfiguration} (h : c.Valid) (index : ℕ) :
    (c.selectProfile index).Valid := by
  unfold CoreConfiguration.selectProfile
  split_ifs
  · refine h.of_map_fst (List.ext_getElem? fun i => ?_) fun profile hprofile => ?_
    · rw [List.getElem?_map, List.getElem?_mapIdx, List.getElem?_map]
      cases c.profiles[i]? <;> rfl
    · obtain ⟨i, hi, rfl⟩ := List.mem_mapIdx.mp hprofile
      exact (h.profiles _ (List.getElem_mem hi)).setSelected _
  · exact h

omit [NaturalSort] in
/-- Some of the profiles may be gone, and the others rearranged. -/
theorem Valid.of_subset {c : CoreConfiguration} (h : c.Valid) {profiles : List (ℕ × Profile)}
    (hnil : profiles ≠ []) (hnodup : (profiles.map Prod.fst).Nodup)
    (hsubset : profiles ⊆ c.profiles) : Valid { c with profiles := profiles } :=
  ⟨fun profile hprofile => h.profiles profile (hsubset hprofile), h.machineSpecific, hnil, hnodup,
    fun profile hprofile => h.fresh profile (hsubset hprofile)⟩

omit [NaturalSort] in
theorem Valid.eraseProfile {c : CoreConfiguration} (h : c.Valid) (index : ℕ) :
    (c.eraseProfile index).Valid := by
  unfold CoreConfiguration.eraseProfile
  split_ifs with hlength
  · have hsublist := List.eraseIdx_sublist c.profiles index
    refine h.of_subset ?_ (h.nodup.sublist (hsublist.map Prod.fst)) hsublist.subset
    have hle := List.le_length_eraseIdx c.profiles index
    exact List.ne_nil_of_length_pos (by omega)
  · exact h

omit [NaturalSort] in
theorem Valid.moveProfile {c : CoreConfiguration} (h : c.Valid)
    (sourceIndex destinationIndex : ℕ) : (c.moveProfile sourceIndex destinationIndex).Valid := by
  obtain ⟨profiles, hmove, hperm⟩ :=
    VectorUtility.exists_moveElement c.profiles sourceIndex destinationIndex
  rw [CoreConfiguration.moveProfile, hmove]
  refine h.of_subset ?_ ((hperm.map Prod.fst).nodup_iff.mpr h.nodup) hperm.subset
  rintro rfl
  exact h.nonempty (List.nil_perm.mp hperm)

/-- **Every operation keeps a configuration valid.** -/
theorem Valid.operate {c : CoreConfiguration} (h : c.Valid) (o : Operation) :
    (c.operate o).Valid := by
  cases o with
  | setProfileName index name => exact h.modify index fun _ hprofile => hprofile.setName name
  | selectProfile index => exact h.selectProfile index
  | pushBackProfile =>
      simp only [CoreConfiguration.operate, CoreConfiguration.pushBackProfile]
      split
      · next profile hprofile => exact h.pushBack (.of_construct hprofile)
      · exact h
  | duplicateProfile profile =>
      simp only [CoreConfiguration.operate, CoreConfiguration.duplicateProfile]
      split
      · next copy hcopy =>
          have hvalid := Profile.Valid.of_construct hcopy
          exact h.pushBack ((hvalid.setName _).setSelected false)
      · exact h
  | eraseProfile index => exact h.eraseProfile index
  | moveProfile sourceIndex destinationIndex => exact h.moveProfile sourceIndex destinationIndex

theorem Valid.act {c : CoreConfiguration} (h : c.Valid) (a : Action) : (c.act a).Valid := by
  cases a with
  | operation o => exact h.operate o
  | profile index edit => exact h.modify index fun _ hprofile => hprofile.edit edit

/-- **Every reachable configuration is valid**; in particular it has a profile. -/
theorem run_valid (errorHandling : ErrorHandling) (document : Option Json) (actions : List Action) :
    (Machine.run act (load errorHandling document) actions).Valid :=
  Machine.run_invariant (fun _ a h => h.act a) (valid_load errorHandling document) actions

end CoreConfiguration

end Karabiner
