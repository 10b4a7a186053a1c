import Karabiner.CoreConfiguration.CoreConfiguration

/-!
# The selected profile

The selection is a flag of every profile, and the list of profiles is permuted, extended and shrunk
by index.  `Selected address` says that the profile at the address is in the list and is the only
one with the flag.

* `KeepsSelection` — the operation neither selects another profile nor erases this one.
* `run_selectProfile` — **a selected profile stays the only selected one** along every run of such
  operations, and `get_selected_profile` returns it.
-/

namespace Karabiner.CoreConfiguration

/-- The profile at the address is the only one whose flag is set. -/
structure Selected (address : ℕ) (c : CoreConfiguration) : Prop where
  mem : address ∈ c.profiles.map Prod.fst
  only : ∀ profile ∈ c.profiles, profile.2.selected ↔ profile.1 = address

/-- No other profile is selected, and the profile at the address is not erased. -/
def KeepsSelection (address : ℕ) (c : CoreConfiguration) : Operation → Prop
  | .selectProfile index => ∀ profile, c.profiles[index]? = some profile → profile.1 = address
  | .eraseProfile index =>
    1 < c.profiles.length → ∀ profile, c.profiles[index]? = some profile → profile.1 ≠ address
  | _ => True

/-- Selecting a profile selects it alone. -/
theorem selected_selectProfile [NlohmannJson] {c : CoreConfiguration} (h : c.Valid)
    {index address : ℕ}
    {profile : Profile} (hindex : c.profiles[index]? = some (address, profile)) :
    Selected address (c.selectProfile index) := by
  obtain ⟨hlt, hget⟩ := List.getElem?_eq_some_iff.mp hindex
  rw [selectProfile, if_pos hlt]
  constructor
  · refine List.mem_map.mpr ⟨(address, profile.setSelected true), ?_, rfl⟩
    refine List.mem_mapIdx.mpr ⟨index, hlt, ?_⟩
    simp [hget]
  · intro other hother
    obtain ⟨i, hi, rfl⟩ := List.mem_mapIdx.mp hother
    -- Different places hold different addresses.
    have hi' : i < (c.profiles.map Prod.fst).length := by simpa using hi
    have hlt' : index < (c.profiles.map Prod.fst).length := by simpa using hlt
    have hnodup : (c.profiles.map Prod.fst)[i] = (c.profiles.map Prod.fst)[index] ↔ i = index :=
      h.nodup.getElem_inj_iff
    rw [List.getElem_map, List.getElem_map, hget] at hnodup
    simp only [Profile.selected_setSelected, decide_eq_true_eq]
    exact hnodup.symm

theorem Selected.pushBack [NlohmannJson] {address : ℕ} {c : CoreConfiguration}
    (h : Selected address c)
    (hvalid : c.Valid) {profile : Profile} (hprofile : profile.selected = false) :
    Selected address (c.pushBack profile) := by
  have hne : c.nextAddress ≠ address := by
    obtain ⟨other, hother, rfl⟩ := List.mem_map.mp h.mem
    exact (hvalid.fresh other hother).ne'
  constructor
  · rw [CoreConfiguration.pushBack, List.map_append]
    exact List.mem_append_left _ h.mem
  · refine List.forall_mem_append.mpr ⟨h.only, fun other hother => ?_⟩
    obtain rfl := List.mem_singleton.mp hother
    simp [hprofile, hne]

/-- Some of the other profiles may be gone, and the rest rearranged. -/
theorem Selected.of_subset {address : ℕ} {c : CoreConfiguration} (h : Selected address c)
    {profiles : List (ℕ × Profile)} (hmem : address ∈ profiles.map Prod.fst)
    (hsubset : profiles ⊆ c.profiles) : Selected address { c with profiles := profiles } :=
  ⟨hmem, fun profile hprofile => h.only profile (hsubset hprofile)⟩

theorem Selected.setProfileName {address : ℕ} {c : CoreConfiguration} (h : Selected address c)
    (index : ℕ) (name : String) : Selected address (c.setProfileName index name) := by
  have hmodify (i : ℕ) : (c.setProfileName index name).profiles[i]? = c.profiles[i]?.map
      fun profile => if index = i then (profile.1, profile.2.setName name) else profile :=
    List.getElem?_modify ..
  constructor
  · obtain ⟨profile, hprofile, rfl⟩ := List.mem_map.mp h.mem
    obtain ⟨i, hi⟩ := List.mem_iff_getElem?.mp hprofile
    have hmem := List.mem_of_getElem? ((hmodify i).trans (congrArg _ hi))
    refine List.mem_map.mpr ⟨_, hmem, ?_⟩
    split_ifs <;> rfl
  · intro profile hprofile
    obtain ⟨i, hi⟩ := List.mem_iff_getElem?.mp hprofile
    rw [hmodify] at hi
    obtain ⟨other, hother, rfl⟩ := Option.map_eq_some_iff.mp hi
    have honly := h.only other (List.mem_of_getElem? hother)
    split_ifs
    · simpa using honly
    · exact honly

theorem Selected.eraseProfile {address : ℕ} {c : CoreConfiguration} (h : Selected address c)
    {index : ℕ} (hkeep : KeepsSelection address c (.eraseProfile index)) :
    Selected address (c.eraseProfile index) := by
  unfold CoreConfiguration.eraseProfile
  split_ifs with hlength
  · refine h.of_subset ?_ (List.eraseIdx_sublist c.profiles index).subset
    obtain ⟨profile, hprofile, rfl⟩ := List.mem_map.mp h.mem
    obtain ⟨i, hi⟩ := List.mem_iff_getElem?.mp hprofile
    refine List.mem_map_of_mem (List.mem_eraseIdx_iff_getElem?.mpr ⟨i, ?_, hi⟩)
    rintro rfl
    exact hkeep hlength profile hi rfl
  · exact h

theorem Selected.moveProfile {address : ℕ} {c : CoreConfiguration} (h : Selected address c)
    (sourceIndex destinationIndex : ℕ) :
    Selected address (c.moveProfile sourceIndex destinationIndex) := by
  obtain ⟨profiles, hmove, hperm⟩ :=
    VectorUtility.exists_moveElement c.profiles sourceIndex destinationIndex
  rw [CoreConfiguration.moveProfile, hmove]
  exact h.of_subset ((hperm.map Prod.fst).mem_iff.mpr h.mem) hperm.subset

section

variable [NlohmannJson] [NaturalSort]

/-- **What one operation keeps.** -/
theorem Selected.operate {address : ℕ} {c : CoreConfiguration} (h : Selected address c)
    (hvalid : c.Valid) {o : Operation} (hkeep : KeepsSelection address c o) :
    Selected address (c.operate o) := by
  cases o with
  | setProfileName index name => exact h.setProfileName index name
  | selectProfile index =>
      cases hindex : c.profiles[index]? with
      | none =>
          have hout : ¬ index < c.profiles.length := by simpa using hindex
          simpa [CoreConfiguration.operate, CoreConfiguration.selectProfile, hout] using h
      | some profile =>
          obtain rfl := hkeep profile hindex
          exact selected_selectProfile hvalid hindex
  | pushBackProfile =>
      rw [CoreConfiguration.operate, CoreConfiguration.pushBackProfile, Profile.construct_name]
      exact h.pushBack hvalid rfl
  | duplicateProfile profile =>
      simp only [CoreConfiguration.operate, CoreConfiguration.duplicateProfile]
      split
      · exact h.pushBack hvalid (Profile.selected_setSelected _ _)
      · exact h
  | eraseProfile index => exact h.eraseProfile hkeep
  | moveProfile sourceIndex destinationIndex => exact h.moveProfile sourceIndex destinationIndex

omit [NaturalSort] in
/-- The only selected profile is what `get_selected_profile` returns. -/
theorem Selected.getSelectedProfile {address : ℕ} {c : CoreConfiguration}
    (h : Selected address c) (hvalid : c.Valid) :
    ∃ profile, (c.profiles.filter fun p => p.2.selected) = [(address, profile)] ∧
      c.getSelectedProfile = some (address, profile) := by
  obtain ⟨⟨a, profile⟩, hprofile, rfl⟩ := List.mem_map.mp h.mem
  have hfilter : (c.profiles.filter fun p => p.2.selected) = [(a, profile)] := by
    have honly : ∀ p ∈ c.profiles.filter fun p => p.2.selected, p = (a, profile) := by
      intro p hp
      obtain ⟨hmem, hselected⟩ := List.mem_filter.mp hp
      exact List.inj_on_of_nodup_map hvalid.nodup hmem hprofile ((h.only p hmem).mp hselected)
    have hnodup := hvalid.nodup.of_map.filter fun p => p.2.selected
    have hmem : (a, profile) ∈ c.profiles.filter fun p => p.2.selected :=
      List.mem_filter.mpr ⟨hprofile, (h.only _ hprofile).mpr rfl⟩
    generalize (c.profiles.filter fun p => p.2.selected) = selected at honly hnodup hmem
    match selected with
    | [] => cases hmem
    | [p] => rw [honly p List.mem_cons_self]
    | p :: q :: rest =>
        have hpq : p = q := (honly p (by simp)).trans (honly q (by simp)).symm
        simp [hpq] at hnodup
  refine ⟨profile, hfilter, ?_⟩
  rw [CoreConfiguration.getSelectedProfile, ← List.head?_filter, hfilter]
  rfl

/-- **The profile list is never empty**, and a selected profile stays the only selected one as long
as no other is selected and it is not erased. -/
theorem run_selectProfile (errorHandling : ErrorHandling) (document : Option Json)
    (before : List Operation) :
    let c := Machine.run operate (load errorHandling document) before
    c.profiles ≠ [] ∧
      ∀ index address profile after, c.profiles[index]? = some (address, profile) →
        Machine.Steps operate (KeepsSelection address) (c.selectProfile index) after →
          let c' := Machine.run operate (c.selectProfile index) after
          ∃ selected, (c'.profiles.filter fun p => p.2.selected) = [(address, selected)] ∧
            c'.getSelectedProfile = some (address, selected) := by
  intro c
  have hvalid : c.Valid :=
    Machine.run_invariant (fun _ o h => h.operate o) (valid_load errorHandling document) before
  refine ⟨hvalid.nonempty, fun index address profile after hindex hkeep => ?_⟩
  have hkeeps (c : CoreConfiguration) (o : Operation) (hkeep : KeepsSelection address c o)
      (h : c.Valid ∧ Selected address c) :
      (c.operate o).Valid ∧ Selected address (c.operate o) :=
    ⟨h.1.operate o, h.2.operate h.1 hkeep⟩
  obtain ⟨hvalid', hselected⟩ := Machine.steps_invariant hkeeps
    ⟨hvalid.selectProfile index, selected_selectProfile hvalid hindex⟩ hkeep
  exact hselected.getSelectedProfile hvalid'

end

/-- A new profile is selected, moved to the front and renamed, and the other one is erased. -/
theorem run_selectProfile_pushBackProfile :
    ∃ (_ : NlohmannJson) (_ : NaturalSort),
      let c := Machine.run operate (load .loose none) [.pushBackProfile]
      let c' := Machine.run operate (c.selectProfile 1)
        [.moveProfile 1 0, .setProfileName 0 "Work", .eraseProfile 1]
      ∃ selected, (c'.profiles.filter fun p => p.2.selected) = [(1, selected)] ∧
        c'.getSelectedProfile = some (1, selected) := by
  let texts := NlohmannJson.ofTable Profile.defaultTexts
  let sort : NaturalSort := .byLength
  refine ⟨texts, sort, (run_selectProfile .loose none [.pushBackProfile]).2 1 1
    (.ofValues .loose [("name", .string "New profile")]
      (Profile.namedValues "New profile" (.make false)))
    [.moveProfile 1 0, .setProfileName 0 "Work", .eraseProfile 1] ?_
    ⟨trivial, trivial, ?_, trivial⟩⟩
  · rw [load_eq_of_profiles_eq_nil rfl, fallback_nil]
    simp only [Machine.run_cons, Machine.run_nil, operate, pushBackProfile, Profile.construct_name,
      pushBack]
    rfl
  · rw [load_eq_of_profiles_eq_nil rfl, fallback_nil]
    simp only [Machine.run_cons, Machine.run_nil, operate, pushBackProfile, Profile.construct_name,
      pushBack]
    rintro - profile hprofile
    obtain rfl := Option.some.inj hprofile
    decide

end Karabiner.CoreConfiguration
