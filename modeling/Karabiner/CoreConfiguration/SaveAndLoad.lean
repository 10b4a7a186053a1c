import Karabiner.CoreConfiguration.Selection

/-!
# Saving and loading

What is left of the profiles when a configuration is written and read again.  A setting that has its
default is not written, and a profile that writes nothing is not in the list at all, so its place
and its selection are lost with it; a string loses its last newline, and a delay is read as `int`.

* `Savable` — the configurations that avoid all of this.
* `run_survivesReload_iff` — **exactly these survive**, in every reachable state.
-/

namespace Karabiner.CoreConfiguration

/-! ### What has to survive -/

/-- `get_delay_milliseconds_before_open_device`. -/
def Profile.delayMillisecondsBeforeOpenDevice (p : Profile) : Int64 :=
  (p.parameters.values .delayMillisecondsBeforeOpenDevice).value

/-- `get_keyboard_type_v2`. -/
def Profile.keyboardTypeV2 (p : Profile) : String :=
  (p.virtualHidKeyboard.values .keyboardTypeV2).value

/-- Two profiles with the same name, the same parameters and the same virtual keyboard. -/
structure Profile.Same (p q : Profile) : Prop where
  name : q.name = p.name
  parameters : ∀ s, (q.parameters.values s).value = (p.parameters.values s).value
  virtualHidKeyboard : ∀ s,
    (q.virtualHidKeyboard.values s).value = (p.virtualHidKeyboard.values s).value

/-- The place of the profile that `get_selected_profile` returns. -/
def selectedIndex (c : CoreConfiguration) : ℕ :=
  (c.profiles.findIdx? fun profile => profile.2.selected).getD 0

theorem getSelectedProfile_eq (c : CoreConfiguration) :
    c.getSelectedProfile = c.profiles[c.selectedIndex]? := by
  unfold getSelectedProfile selectedIndex
  cases hindex : c.profiles.findIdx? fun profile => profile.2.selected with
  | none =>
      have hnone := List.findIdx?_eq_none_iff.mp hindex
      rw [List.find?_eq_none.mpr (by simpa using hnone), Option.none_or, List.head?_eq_getElem?]
      rfl
  | some i =>
      obtain ⟨hlt, hselected, hbefore⟩ := List.findIdx?_eq_some_iff_getElem.mp hindex
      have hfind : (c.profiles.find? fun profile => profile.2.selected) = some c.profiles[i] :=
        List.find?_eq_some_iff_getElem.mpr
          ⟨hselected, i, hlt, rfl, fun j hj => by simpa using hbefore j hj⟩
      rw [hfind, Option.some_or, Option.getD_some, List.getElem?_eq_getElem hlt]

/-- The same profiles in the same order, and the same one selected. -/
structure Preserves (c c' : CoreConfiguration) : Prop where
  profiles : List.Forall₂ Profile.Same (c.profiles.map Prod.snd) (c'.profiles.map Prod.snd)
  selected : c'.selectedIndex = c.selectedIndex

/-- Loading what is written preserves the profiles. -/
def SurvivesReload [NlohmannJson] [NaturalSort] (c : CoreConfiguration) : Prop :=
  ∃ json, c.toJson = some json ∧ Preserves c (load c.errorHandling (some json))

/-! ### When it does -/

/-- A profile of which nothing is lost. -/
structure Profile.Savable [NlohmannJson] (p : Profile) : Prop where
  notBlank : ¬ p.Blank
  name : p.name.toList.getLast? ≠ some '\n'
  keyboardTypeV2 : p.keyboardTypeV2.toList.getLast? ≠ some '\n'
  delay : Json.FitsInt 32 p.delayMillisecondsBeforeOpenDevice.toInt

theorem Profile.same_iff_of_reloads {p q : Profile} (h : p.Reloads q) :
    p.Same q ↔ p.name.toList.getLast? ≠ some '\n' ∧
      p.keyboardTypeV2.toList.getLast? ≠ some '\n' ∧
        Json.FitsInt 32 p.delayMillisecondsBeforeOpenDevice.toInt := by
  rw [← SettingType.restore_string_eq_iff, ← SettingType.restore_string_eq_iff,
    ← SettingType.restore_milliseconds_eq_iff]
  constructor
  · intro hsame
    exact ⟨(h.values .name).symm.trans hsame.name,
      (h.virtualHidKeyboard .keyboardTypeV2).symm.trans (hsame.virtualHidKeyboard .keyboardTypeV2),
      (h.parameters .delayMillisecondsBeforeOpenDevice).symm.trans
        (hsame.parameters .delayMillisecondsBeforeOpenDevice)⟩
  · rintro ⟨hname, hkeyboard, hdelay⟩
    refine ⟨(h.values .name).trans hname, fun s => ?_, fun s => ?_⟩
    · cases s
      exact (h.parameters .delayMillisecondsBeforeOpenDevice).trans hdelay
    · cases s with
      | keyboardTypeV2 => exact (h.virtualHidKeyboard .keyboardTypeV2).trans hkeyboard
      | mouseKeyXyScale => exact h.virtualHidKeyboard .mouseKeyXyScale
      | indicateStickyModifierKeysState =>
          exact h.virtualHidKeyboard .indicateStickyModifierKeysState

theorem Profile.selected_of_reloads {p q : Profile} (h : p.Reloads q) : q.selected = p.selected :=
  h.values .selected

section

variable [NlohmannJson] [NaturalSort]

/-- The profiles that are written, in their order. -/
def written (c : CoreConfiguration) : List Profile :=
  (c.profiles.map Prod.snd).filter fun profile => !profile.toJson.isEmpty

/-- **What is loaded** are the profiles that were written, or the default profile. -/
theorem profiles_load_toJson {c : CoreConfiguration} (h : c.Valid) (members : Json.Members) :
    ∃ profiles, List.Forall₂ Profile.Reloads c.written profiles ∧
      (load c.errorHandling (some (.object (Json.putAll c.entries members)))).profiles.map
          Prod.snd =
        fallback c.errorHandling profiles := by
  have hkeys : (c.entries.map Prod.fst).Nodup := by
    simp [entries]
  have hglobal : (Json.putAll c.entries members).lookup "global" =
      savedObject c.globalConfiguration.toJson :=
    Json.lookup_putAll hkeys (by simp [entries]) members
  have hmachine : (Json.putAll c.entries members).lookup "machine_specific" =
      savedObject c.machineSpecific.toJson :=
    Json.lookup_putAll hkeys (by simp [entries]) members
  have hprofiles : (Json.putAll c.entries members).lookup "profiles" =
      savedArray (c.profiles.map fun profile => profile.2.toJson) :=
    Json.lookup_putAll hkeys (by simp [entries]) members
  obtain ⟨machineSpecific, hmachine'⟩ :=
    MachineSpecific.construct_toJson c.errorHandling h.machineSpecific
  obtain ⟨profiles, hread, hloaded⟩ := updateArray_saved hprofiles
    (List.forall_mem_map.mpr fun profile hprofile =>
      (Profile.construct_toJson (h.profiles profile hprofile)).imp fun _ h => h.1) []
  refine ⟨profiles, ?_, ?_⟩
  · have hwritten : (c.profiles.map fun profile => profile.2.toJson).filter
        (fun json => !json.isEmpty) = c.written.map Profile.toJson := by
      rw [written, List.filter_map, List.filter_map, List.map_map]
      rfl
    rw [hwritten, List.forall₂_map_left_iff] at hloaded
    refine List.forall₂_iff_zip.mpr ⟨hloaded.length_eq, fun {p q} hpq => ?_⟩
    have hmem := (List.mem_filter.mp (List.of_mem_zip hpq).1).1
    obtain ⟨profile, hprofile, rfl⟩ := List.mem_map.mp hmem
    obtain ⟨q', hconstruct, hreloads⟩ := Profile.construct_toJson (h.profiles profile hprofile)
    have hq := (List.forall₂_iff_zip.mp hloaded).2 hpq
    obtain rfl := Except.ok.inj (hconstruct.symm.trans hq)
    exact hreloads
  · simp only [load, readDocument, readParts, updateObject_saved hglobal
      (SettingsObject.construct_toJson c.errorHandling c.globalConfiguration),
      updateObject_saved hmachine hmachine', hread, List.nil_append]
    exact List.map_snd_zip (by simp)

omit [NlohmannJson] [NaturalSort] in
/-- The selection is read off the flags. -/
theorem selectedIndex_congr {c c' : CoreConfiguration}
    (h : (c'.profiles.map Prod.snd).map Profile.selected =
      (c.profiles.map Prod.snd).map Profile.selected) :
    c'.selectedIndex = c.selectedIndex := by
  have hflags (c : CoreConfiguration) : c.selectedIndex =
      (((c.profiles.map Prod.snd).map Profile.selected).findIdx? id).getD 0 := by
    rw [selectedIndex, List.map_map, List.findIdx?_map]
    rfl
  rw [hflags, hflags, h]

omit [NaturalSort] in
/-- Nothing is dropped from a list without blank profiles. -/
theorem written_eq_iff {c : CoreConfiguration} (h : c.Valid) :
    c.written = c.profiles.map Prod.snd ↔ ∀ profile ∈ c.profiles, ¬ profile.2.Blank := by
  rw [written, List.filter_eq_self, List.forall_mem_map]
  refine forall₂_congr fun profile hprofile => ?_
  rw [Bool.not_eq_true', ← Bool.not_eq_true,
    Profile.toJson_isEmpty_iff (h.profiles profile hprofile)]

/-- A list of profiles that is written in part is not preserved: there are fewer profiles than
before, or the default profile alone, which has a name. -/
theorem written_eq_of_same {c : CoreConfiguration} (h : c.Valid) {profiles : List Profile}
    (hreloads : List.Forall₂ Profile.Reloads c.written profiles)
    (hsame : List.Forall₂ Profile.Same (c.profiles.map Prod.snd)
      (fallback c.errorHandling profiles)) :
    c.written = c.profiles.map Prod.snd := by
  have hlength := hreloads.length_eq
  cases profiles with
  | cons q rest =>
      refine List.filter_sublist.eq_of_length ?_
      have hfallback : fallback c.errorHandling (q :: rest) = q :: rest := rfl
      rw [hfallback] at hsame
      exact hlength.trans hsame.length_eq.symm
  | nil =>
      -- No profile was written, so all were blank, and a blank profile has no name.
      rw [fallback_nil] at hsame
      obtain ⟨p, hp⟩ : ∃ p, c.profiles.map Prod.snd = [p] :=
        List.length_eq_one_iff.mp hsame.length_eq
      obtain ⟨profile, hprofile, rfl⟩ : ∃ profile ∈ c.profiles, profile.2 = p :=
        List.mem_map.mp (hp ▸ List.mem_singleton_self p)
      have hvalid := h.profiles profile hprofile
      have hempty : profile.2.toJson.isEmpty := by
        have hwritten : c.written = [] := List.eq_nil_of_length_eq_zero hlength
        rw [written, List.filter_eq_nil_iff] at hwritten
        simpa using hwritten profile.2 (List.mem_map_of_mem hprofile)
      have hname := ((Profile.toJson_isEmpty_iff hvalid).mp hempty).values .name
      rw [hvalid.values .name] at hname
      rw [hp] at hsame
      cases hsame with
      | cons hsame _ =>
          have hdefault : "Default profile" = profile.2.name := hsame.name
          rw [Profile.name, hname] at hdefault
          exact absurd hdefault (by decide)

omit [NlohmannJson] [NaturalSort] in
/-- A relation between two lists may be read off the first, when they are related already. -/
theorem forall₂_iff_forall {α β : Type} {R S : α → β → Prop} {P : α → Prop} {l : List α}
    {l' : List β} (h : List.Forall₂ R l l') (hiff : ∀ a b, R a b → (S a b ↔ P a)) :
    List.Forall₂ S l l' ↔ ∀ a ∈ l, P a := by
  induction h with
  | nil => simp
  | cons hab _ ih => rw [List.forall₂_cons, List.forall_mem_cons, hiff _ _ hab, ih]

/-- **Exactly the savable configurations survive.** -/
theorem survivesReload_iff {c : CoreConfiguration} (h : c.Valid) :
    c.SurvivesReload ↔
      MachineSpecific.isObject c.json ∧ ∀ profile ∈ c.profiles, profile.2.Savable := by
  cases hjson : c.json with
  | object members =>
      have htoJson : c.toJson = some (.object (Json.putAll c.entries members)) := by
        rw [toJson, hjson]
      obtain ⟨profiles, hreloads, hloaded⟩ := profiles_load_toJson h members
      have hlosses (hwritten : c.written = c.profiles.map Prod.snd) :
          List.Forall₂ Profile.Same (c.profiles.map Prod.snd) profiles ↔
            ∀ profile ∈ c.profiles, profile.2.name.toList.getLast? ≠ some '\n' ∧
              profile.2.keyboardTypeV2.toList.getLast? ≠ some '\n' ∧
                Json.FitsInt 32 profile.2.delayMillisecondsBeforeOpenDevice.toInt := by
        rw [hwritten] at hreloads
        rw [forall₂_iff_forall hreloads fun p q => Profile.same_iff_of_reloads, List.forall_mem_map]
      have hfallback (hwritten : c.written = c.profiles.map Prod.snd) :
          fallback c.errorHandling profiles = profiles := by
        have hnil : profiles ≠ [] := by
          rintro rfl
          have hlength := hreloads.length_eq
          rw [hwritten, List.length_map] at hlength
          exact h.nonempty (List.eq_nil_of_length_eq_zero hlength)
        cases profiles with
        | nil => exact absurd rfl hnil
        | cons q rest => rfl
      constructor
      · rintro ⟨json, hsome, hpreserves⟩
        obtain rfl := Option.some.inj (htoJson.symm.trans hsome)
        have hsame := hpreserves.profiles
        rw [hloaded] at hsame
        have hwritten := written_eq_of_same h hreloads hsame
        rw [hfallback hwritten, hlosses hwritten] at hsame
        have hblank := (written_eq_iff h).mp hwritten
        exact ⟨rfl, fun profile hprofile => ⟨hblank profile hprofile, (hsame profile hprofile).1,
          (hsame profile hprofile).2.1, (hsame profile hprofile).2.2⟩⟩
      · rintro ⟨-, hsavable⟩
        have hwritten := (written_eq_iff h).mpr fun profile hprofile =>
          (hsavable profile hprofile).notBlank
        have hsame := (hlosses hwritten).mpr fun profile hprofile =>
          ⟨(hsavable profile hprofile).name, (hsavable profile hprofile).keyboardTypeV2,
            (hsavable profile hprofile).delay⟩
        rw [hfallback hwritten] at hloaded
        refine ⟨_, htoJson, ?_, selectedIndex_congr ?_⟩
        · rw [hloaded]
          exact hsame
        · rw [hloaded, ← hwritten]
          symm
          exact List.forall₂_eq_eq_eq ▸ List.forall₂_map_left_iff.mpr
            (List.forall₂_map_right_iff.mpr
              (hreloads.imp fun p q hpq => (Profile.selected_of_reloads hpq).symm))
  | _ => simp [SurvivesReload, toJson, hjson, MachineSpecific.isObject]

/-! ### Every reachable configuration -/

/-- The JSON of a configuration is the one it was loaded from. -/
theorem json_act (c : CoreConfiguration) (a : Action) : (c.act a).json = c.json := by
  cases a with
  | profile index edit => rfl
  | operation o =>
      cases o with
      | setProfileName index name => rfl
      | selectProfile index =>
          simp only [act, operate, selectProfile]
          split <;> rfl
      | pushBackProfile =>
          simp only [act, operate, pushBackProfile]
          split <;> rfl
      | duplicateProfile profile =>
          simp only [act, operate, duplicateProfile]
          split <;> rfl
      | eraseProfile index =>
          simp only [act, operate, eraseProfile]
          split <;> rfl
      | moveProfile sourceIndex destinationIndex => rfl

theorem json_run (errorHandling : ErrorHandling) (document : Option Json) (actions : List Action) :
    (Machine.run act (load errorHandling document) actions).json = document.getD (.object []) :=
  Machine.run_invariant (fun c a h => (json_act c a).trans h) rfl actions

/-- **The profiles of a reachable configuration survive** when it is written and loaded again, if
and only if the file was no other JSON than an object and nothing is lost of any profile. -/
theorem run_survivesReload_iff (errorHandling : ErrorHandling) (document : Option Json)
    (actions : List Action) :
    let c := Machine.run act (load errorHandling document) actions
    c.SurvivesReload ↔
      document.all MachineSpecific.isObject ∧ ∀ profile ∈ c.profiles, profile.2.Savable := by
  intro c
  have hjson : MachineSpecific.isObject c.json ↔ document.all MachineSpecific.isObject := by
    rw [json_run]
    cases document <;> simp [MachineSpecific.isObject]
  rw [survivesReload_iff (run_valid errorHandling document actions), hjson]

/-- A new profile whose name is removed. -/
theorem mem_noName (errorHandling : ErrorHandling) :
    (1, .ofValues errorHandling [("name", .string "New profile")]
        ((Profile.namedValues "New profile" (.make false)).setValue .name "")) ∈
      (Machine.run act (load errorHandling (some (.object [])))
        [.operation .pushBackProfile, .operation (.setProfileName 1 "")]).profiles := by
  rw [load_eq_of_profiles_eq_nil rfl]
  simp only [Machine.run_cons, Machine.run_nil, act, operate, pushBackProfile,
    Profile.construct_name, setProfileName, pushBack]
  exact List.mem_cons_of_mem _ List.mem_cons_self

end

/-- A new profile whose name is removed writes nothing, so it is not loaded again. -/
theorem not_survivesReload_of_noName :
    ¬ ∀ (_ : NlohmannJson) (_ : NaturalSort) (errorHandling : ErrorHandling)
      (document : Option Json) (actions : List Action),
        document.all MachineSpecific.isObject →
          (Machine.run act (load errorHandling document) actions).SurvivesReload := by
  intro h
  let texts := NlohmannJson.ofTable Profile.defaultTexts
  let sort : NaturalSort := .byLength
  have hsurvives := h texts sort .loose (some (.object []))
    [.operation .pushBackProfile, .operation (.setProfileName 1 "")] rfl
  rw [survivesReload_iff (run_valid ..)] at hsurvives
  refine (hsurvives.2 _ (mem_noName .loose)).notBlank (Profile.blank_ofValues ?_ ?_ ?_)
  · simp [Profile.knownKeys]
  · intro s
    cases s <;> rfl
  · exact Profile.unsaved_defaultTexts

end Karabiner.CoreConfiguration
