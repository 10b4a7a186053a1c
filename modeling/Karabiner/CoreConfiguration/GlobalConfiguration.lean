import Karabiner.CoreConfiguration.ConfigurationJsonHelper

/-!
# The settings outside the profiles

`share/core_configuration/details/global_configuration.hpp` and `machine_specific.hpp`.  The
machine-specific part has an entry for every member that is an object; it is read before the
profiles, so an entry that could not be read again would take the profiles with it.

* `MachineSpecific.construct_toJson` — machine-specific settings can be read again.
-/

namespace Karabiner.CoreConfiguration

open JsonUtility

/-! ### The global configuration -/

namespace GlobalConfiguration

/-- The settings, in the order in which the constructor adds them. -/
inductive Setting
  | checkForUpdatesOnStartup
  | showInMenuBar
  | showProfileNameInMenuBar
  | showAdditionalMenuItems
  | enableNotificationWindow
  | askForConfirmationBeforeQuitting
  | unsafeUi
  | filterUselessEventsFromSpecificDevices
  | reorderSameTimestampInputEventsToPrioritizeModifiers
deriving DecidableEq, Repr

namespace Setting

def key : Setting → String
  | checkForUpdatesOnStartup => "check_for_updates_on_startup"
  | showInMenuBar => "show_in_menu_bar"
  | showProfileNameInMenuBar => "show_profile_name_in_menu_bar"
  | showAdditionalMenuItems => "show_additional_menu_items"
  | enableNotificationWindow => "enable_notification_window"
  | askForConfirmationBeforeQuitting => "ask_for_confirmation_before_quitting"
  | unsafeUi => "unsafe_ui"
  | filterUselessEventsFromSpecificDevices => "filter_useless_events_from_specific_devices"
  | reorderSameTimestampInputEventsToPrioritizeModifiers =>
    "reorder_same_timestamp_input_events_to_prioritize_modifiers"

def default : Setting → Bool
  | checkForUpdatesOnStartup => true
  | showInMenuBar => true
  | showProfileNameInMenuBar => false
  | showAdditionalMenuItems => false
  | enableNotificationWindow => true
  | askForConfirmationBeforeQuitting => true
  | unsafeUi => false
  | filterUselessEventsFromSpecificDevices => true
  | reorderSameTimestampInputEventsToPrioritizeModifiers => true

instance : SettingFamily Setting where
  key := key
  type := fun _ => .boolean
  default := default
  all := [checkForUpdatesOnStartup, showInMenuBar, showProfileNameInMenuBar,
    showAdditionalMenuItems, enableNotificationWindow, askForConfirmationBeforeQuitting, unsafeUi,
    filterUselessEventsFromSpecificDevices, reorderSameTimestampInputEventsToPrioritizeModifiers]
  mem_all := by
    intro s
    cases s <;> decide
  nodup_keys := by decide

end Setting

end GlobalConfiguration

/-- `global_configuration`. -/
abbrev GlobalConfiguration : Type := SettingsObject GlobalConfiguration.Setting

/-! ### Machine-specific settings -/

namespace MachineSpecific

/-- The one setting of an entry. -/
inductive Setting
  | enableMultitouchExtension
deriving DecidableEq, Repr

instance : SettingFamily Setting where
  key := fun _ => "enable_multitouch_extension"
  type := fun _ => .boolean
  default := fun _ => false
  all := [.enableMultitouchExtension]
  mem_all := by
    rintro ⟨⟩
    decide
  nodup_keys := by decide

/-- `machine_specific::entry`. -/
abbrev Entry : Type := SettingsObject Setting

end MachineSpecific

/-- `machine_specific`, with an entry for each machine identifier. -/
structure MachineSpecific where
  members : Json.Members := []
  entries : List (String × MachineSpecific.Entry) := []

namespace MachineSpecific

/-- The value is an object. -/
def isObject : Json → Bool
  | .object _ => true
  | _ => false

/-- What `to_json` puts under each key. -/
def jsonEntries (m : MachineSpecific) : List (String × Option Json) :=
  m.entries.map fun entry => (entry.1, savedObject entry.2.toJson)

/-- The members of `to_json`. -/
def toMembers (m : MachineSpecific) : Json.Members := Json.putAll m.jsonEntries m.members

/-- `to_json`. -/
def toJson (m : MachineSpecific) : Json := .object m.toMembers

variable [NlohmannJson]

/-- The constructor from JSON. -/
def construct (errorHandling : ErrorHandling) (json : Json) : JsonM MachineSpecific := do
  let members ← requiresObject json "json"
  let entries ← (members.filter fun m => isObject m.2).mapM fun m =>
    return (m.1, ← SettingsObject.construct errorHandling m.2)
  return { members, entries }

/-- Every member that is an object has its entry. -/
def Valid (m : MachineSpecific) : Prop :=
  ∀ member ∈ m.members, isObject member.2 → member.1 ∈ m.entries.map Prod.fst

omit [NlohmannJson] in
theorem valid_default : ({} : MachineSpecific).Valid := by
  intro member hmember
  cases hmember

theorem Valid.of_construct {errorHandling : ErrorHandling} {json : Json} {m : MachineSpecific}
    (h : construct errorHandling json = .ok m) : m.Valid := by
  obtain ⟨members, -, h⟩ := JsonM.bind_eq_ok.mp h
  obtain ⟨entries, hentries, rfl⟩ := JsonM.bind_pure_eq_ok.mp h
  intro member hmember hisObject
  have hread := mapM_eq_ok_iff.mp hentries
  have hfiltered : member ∈ members.filter fun m => isObject m.2 :=
    List.mem_filter.mpr ⟨hmember, hisObject⟩
  obtain ⟨i, hi, hget⟩ := List.getElem_of_mem hfiltered
  have hentry := hread.get hi (hread.length_eq ▸ hi)
  obtain ⟨entry, -, heq⟩ := JsonM.bind_eq_ok.mp hentry
  rw [List.mem_map]
  refine ⟨_, List.getElem_mem (hread.length_eq ▸ hi), ?_⟩
  simpa [hget] using (congrArg Prod.fst (Except.ok.inj heq)).symm

/-- **Machine-specific settings can be read again** after they are written. -/
theorem construct_toJson (errorHandling : ErrorHandling) {m : MachineSpecific} (h : m.Valid) :
    ∃ reloaded, construct errorHandling m.toJson = .ok reloaded := by
  have hobject : ∀ member ∈ m.toMembers.filter fun member => isObject member.2,
      ∃ entry : Entry, SettingsObject.construct errorHandling member.2 = .ok entry := by
    intro member hmember
    obtain ⟨hput, hisObject⟩ := List.mem_filter.mp hmember
    rcases Json.mem_putAll hput with hentry | ⟨hkey, hbefore⟩
    · obtain ⟨entry, -, heq⟩ := List.mem_map.mp hentry
      have hsaved : savedObject entry.2.toJson = some member.2 := congrArg Prod.snd heq
      have hjson : entry.2.toJson = member.2 := by
        unfold savedObject at hsaved
        split_ifs at hsaved
        exact Option.some.inj hsaved
      exact ⟨_, hjson ▸ SettingsObject.construct_toJson errorHandling entry.2⟩
    · have hkeys : m.jsonEntries.map Prod.fst = m.entries.map Prod.fst := by
        simp [jsonEntries, Function.comp_def]
      exact absurd (h member hbefore hisObject) (hkeys ▸ hkey)
  obtain ⟨entries, hentries⟩ : ∃ entries,
      (m.toMembers.filter fun member => isObject member.2).mapM (fun member => do
        return (member.1, ← SettingsObject.construct errorHandling member.2)) =
          (.ok entries : JsonM (List (String × Entry))) := by
    refine exists_mapM_of_forall fun member hmember => ?_
    obtain ⟨entry, hentry⟩ := hobject member hmember
    exact ⟨(member.1, entry), by simp [hentry]⟩
  exact ⟨_, by simp only [construct, toJson, requiresObject, JsonM.ok_bind, hentries]; rfl⟩

end MachineSpecific

end Karabiner.CoreConfiguration
