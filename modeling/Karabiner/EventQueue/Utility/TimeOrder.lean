import Karabiner.EventQueue.Utility.Conservation
import Karabiner.Library.History

/-!
# The time order of the entries

`make_entries` holds back a motion until a second value of one of its axes comes, or the values end,
and puts it behind the switches that were appended in the meantime, with the time of its last value.
The time stamps of the values never go backwards; those of the entries do if such a switch is later
than the motion.

* `Overtaken` — a switch among the values is later than their last axis value.
* `makeEntries_timeOrder` — **exactly when the entries are in time order**.
-/

namespace Karabiner

namespace MakeEntries

/-! ### What may go wrong -/

/-- The axis values among some values. -/
def axisValues (d : DeviceProperties) (values : List HidValue) : List HidValue :=
  values.filter fun v => (axis d v).isSome

/-- Among the values there is a switch, an LED or a d-pad change that is later than the last axis
value. -/
def Overtaken (d : DeviceProperties) (direction : Direction) (values : List HidValue) : Prop :=
  ∃ v ∈ (axisValues d values).getLast?, ∃ e ∈ switchEntries d direction values,
    v.timeStamp < e.eventTimeStamp.timeStamp

/-- The value is on an axis that the pending motion of the values before it has already. -/
def EmitsMotion (d : DeviceProperties) (before : List HidValue) (v : HidValue) : Prop :=
  ∃ a, axis d v = some a ∧ Collides d (joined d {} before).group a

/-- The time stamp of what is emitted. -/
def time (d : DeviceProperties) (parameters : MakeEntriesParameters) (x : Emission) :
    AbsoluteTime :=
  (x.toEntry d parameters).eventTimeStamp.timeStamp

theorem timeStamp_of_mem_valueEntries {d : DeviceProperties} {direction : Direction} {v : HidValue}
    {e : Entry} (h : e ∈ valueEntries d direction v) :
    e.eventTimeStamp.timeStamp = v.timeStamp := by
  unfold valueEntries at h
  split at h
  · obtain rfl := List.mem_singleton.mp h
    rfl
  · split at h
    · obtain rfl := List.mem_singleton.mp h
      rfl
    · split at h
      · obtain ⟨pair, -, rfl⟩ := List.mem_map.mp h
        rfl
      · cases h

/-! ### What is held back -/

theorem joined_concat (d : DeviceProperties) (s : Joined) (values : List HidValue) (v : HidValue) :
    joined d s (values ++ [v]) = (join d (joined d s values) v).1 :=
  Machine.run_concat ..

theorem emitted_concat (d : DeviceProperties) (s : Joined) (values : List HidValue)
    (v : HidValue) :
    emitted d s (values ++ [v]) = emitted d s values ++ (join d (joined d s values) v).2 :=
  Machine.outputs_concat ..

/-- The hat switch has no part in what is held back. -/
theorem group_joined (d : DeviceProperties) (direction : Direction) (values : List HidValue) :
    (joined d ⟨[], direction⟩ values).group = (joined d {} values).group := by
  have hstep (s t : Joined) (v : HidValue) (h : s.group = t.group) :
      (join d s v).1.group = (join d t v).1.group := by
    unfold join
    cases axis d v with
    | none => exact h
    | some a =>
        simp only [h]
        split_ifs <;> rfl
  have hinit : (⟨[], direction⟩ : Joined).group = ({} : Joined).group := rfl
  exact Machine.run_simulation (R := fun s t : Joined => s.group = t.group) hstep hinit values

/-- The last value of the pending motion is the last axis value. -/
theorem getLast?_group_joined (d : DeviceProperties) (s : Joined) (hs : s.group = [])
    (values : List HidValue) :
    (joined d s values).group.getLast? = (axisValues d values).getLast? := by
  induction values using List.reverseRecOn with
  | nil => rw [joined, Machine.run_nil, hs, axisValues, List.filter_nil]
  | append_singleton values v ih =>
      have hconcat : axisValues d (values ++ [v]) =
          axisValues d values ++ [v].filter fun v => (axis d v).isSome :=
        List.filter_append ..
      rw [joined_concat, hconcat, join]
      cases haxis : axis d v with
      | none =>
          rw [List.filter_cons_of_neg (by simp [haxis]), List.filter_nil, List.append_nil]
          exact ih
      | some a =>
          rw [List.filter_cons_of_pos (by simp [haxis]), List.filter_nil, List.getLast?_concat]
          simp only
          split_ifs
          · rfl
          · exact List.getLast?_concat

/-! ### When a motion is late -/

section

variable {d : DeviceProperties} {parameters : MakeEntriesParameters} {direction : Direction}
  {values : List HidValue}

/-- What is emitted before the end: the switches, and motions of axis values. -/
theorem mem_emitted (parameters : MakeEntriesParameters) {x : Emission}
    (h : x ∈ emitted d ⟨[], direction⟩ values) :
    (∃ e ∈ switchEntries d direction values, x = .entry e) ∨
      ∃ group, x = .motion group ∧ ∃ v ∈ axisValues d values,
        time d parameters x = v.timeStamp := by
  have hmem : x ∈ emissions d ⟨[], direction⟩ values := List.mem_append_left _ h
  cases x with
  | entry e =>
      refine Or.inl ⟨e, ?_, rfl⟩
      rw [← filterMap_getEntry_emissions d ⟨[], direction⟩ values]
      exact List.mem_filterMap.mpr ⟨_, hmem, rfl⟩
  | motion group =>
      refine Or.inr ⟨group, rfl, ?_⟩
      obtain ⟨hne, -⟩ := onePerAxis_of_mem_emissions (by simp [OnePerAxis]) values hmem
      have hgroup : group.getLast hne ∈ axisValues d values := by
        have hflatten := flatten_getGroup_emissions d ⟨[], direction⟩ values
        rw [List.nil_append] at hflatten
        rw [axisValues, ← hflatten]
        exact List.mem_flatten.mpr
          ⟨group, List.mem_filterMap.mpr ⟨_, hmem, rfl⟩, List.getLast_mem hne⟩
      refine ⟨_, hgroup, ?_⟩
      simp [time, Emission.toEntry, motionEntry, MakeEntriesState.makeEntry,
        List.getLast?_eq_getLast_of_ne_nil hne]

theorem mem_emitted_entry {e : Entry} (h : e ∈ switchEntries d direction values) :
    .entry e ∈ emitted d ⟨[], direction⟩ values := by
  rw [← filterMap_getEntry_emissions d ⟨[], direction⟩ values] at h
  obtain ⟨x, hx, he⟩ := List.mem_filterMap.mp h
  cases x with
  | motion group => cases he
  | entry e' =>
      obtain rfl := Option.some.inj he
      rcases List.mem_append.mp hx with hx | hx
      · exact hx
      · unfold flush at hx
        split_ifs at hx <;> simp at hx

/-- What is emitted has the time of one of the values. -/
theorem exists_time_eq (parameters : MakeEntriesParameters) {x : Emission}
    (h : x ∈ emitted d ⟨[], direction⟩ values) :
    ∃ v ∈ values, time d parameters x = v.timeStamp := by
  rcases mem_emitted parameters h with ⟨e, he, rfl⟩ | ⟨group, rfl, v, hv, htime⟩
  · obtain ⟨v, hv, direction', he⟩ := exists_of_mem_switchEntries he
    exact ⟨v, hv, timeStamp_of_mem_valueEntries he⟩
  · exact ⟨v, (List.mem_filter.mp hv).1, htime⟩

/-- A motion is in order behind what was emitted before it unless it has been overtaken. -/
theorem forall_time_le_iff (hvalues : values.Pairwise fun v w => v.timeStamp ≤ w.timeStamp)
    (hgroup : (joined d ⟨[], direction⟩ values).group ≠ []) :
    (∀ x ∈ emitted d ⟨[], direction⟩ values,
        time d parameters x ≤ time d parameters (.motion (joined d ⟨[], direction⟩ values).group)) ↔
      ¬ Overtaken d direction values := by
  have hlast := getLast?_group_joined d ⟨[], direction⟩ rfl values
  rw [List.getLast?_eq_getLast_of_ne_nil hgroup] at hlast
  generalize (joined d ⟨[], direction⟩ values).group.getLast hgroup = w at hlast
  have htime : time d parameters (.motion (joined d ⟨[], direction⟩ values).group) =
      w.timeStamp := by
    simp [time, Emission.toEntry, motionEntry, MakeEntriesState.makeEntry,
      getLast?_group_joined d ⟨[], direction⟩ rfl values, ← hlast]
  have haxis : ∀ v ∈ axisValues d values, v.timeStamp ≤ w.timeStamp := by
    obtain ⟨before, hbefore⟩ := List.getLast?_eq_some_iff.mp hlast.symm
    have hpairs : (axisValues d values).Pairwise fun v w => v.timeStamp ≤ w.timeStamp :=
      hvalues.sublist List.filter_sublist
    rw [hbefore, List.pairwise_append] at hpairs
    rw [hbefore]
    intro v hv
    rcases List.mem_append.mp hv with hv | hv
    · exact hpairs.2.2 v hv w (List.mem_singleton_self w)
    · rw [List.mem_singleton.mp hv]
  rw [htime]
  constructor
  · rintro hle ⟨v, hv, e, he, hlt⟩
    obtain rfl : w = v := Option.some.inj (hlast.trans hv)
    exact absurd (hle _ (mem_emitted_entry he)) (not_le.mpr hlt)
  · intro hovertaken x hx
    rcases mem_emitted parameters hx with ⟨e, he, rfl⟩ | ⟨group, rfl, v, hv, hv'⟩
    · exact not_lt.mp fun hlt => hovertaken ⟨w, hlast.symm, e, he, hlt⟩
    · exact hv'.trans_le (haxis v hv)

/-- The time stamps of what is emitted do not go backwards. -/
def InOrder (d : DeviceProperties) (parameters : MakeEntriesParameters) (l : List Emission) :
    Prop :=
  l.Pairwise fun x y => time d parameters x ≤ time d parameters y

theorem inOrder_concat {l : List Emission} {x : Emission} :
    InOrder d parameters (l ++ [x]) ↔
      InOrder d parameters l ∧ ∀ y ∈ l, time d parameters y ≤ time d parameters x := by
  simp [InOrder, List.pairwise_append]

/-- **One value**: only a motion that is emitted for it may be out of order. -/
theorem inOrder_emitted_concat {v : HidValue}
    (hvalues : (values ++ [v]).Pairwise fun v w => v.timeStamp ≤ w.timeStamp) :
    InOrder d parameters (emitted d ⟨[], direction⟩ (values ++ [v])) ↔
      InOrder d parameters (emitted d ⟨[], direction⟩ values) ∧
        (EmitsMotion d values v → ¬ Overtaken d direction values) := by
  obtain ⟨hbefore, -, hle⟩ := List.pairwise_append.mp hvalues
  rw [emitted_concat]
  cases haxis : axis d v with
  | none =>
      have hnot : ¬ EmitsMotion d values v := by
        rintro ⟨a, ha, -⟩
        simp [haxis] at ha
      simp only [join, haxis, hnot, false_implies, and_true]
      refine ⟨fun h => (List.pairwise_append.mp h).1, fun h => List.pairwise_append.mpr ⟨h, ?_, ?_⟩⟩
      · -- The entries of one value have the same time.
        refine List.pairwise_map.mpr (List.pairwise_of_forall_mem_list fun e he e' he' => ?_)
        exact (timeStamp_of_mem_valueEntries he).trans_le (timeStamp_of_mem_valueEntries he').ge
      · rintro x hx y hy
        obtain ⟨w, hw, htime⟩ := exists_time_eq parameters hx
        obtain ⟨e, he, rfl⟩ := List.mem_map.mp hy
        rw [htime]
        exact (hle w hw v (List.mem_singleton_self v)).trans (timeStamp_of_mem_valueEntries he).ge
  | some a =>
      have hiff : EmitsMotion d values v ↔
          Collides d (joined d ⟨[], direction⟩ values).group a := by
        rw [group_joined, EmitsMotion]
        simp [haxis]
      simp only [join, haxis, hiff]
      split_ifs with hcollides
      · have hne : (joined d ⟨[], direction⟩ values).group ≠ [] := by
          rintro hnil
          simp [Collides, hnil] at hcollides
        rw [inOrder_concat, forall_time_le_iff hbefore hne]
        simp [hcollides]
      · simp [hcollides]

/-- What is emitted before the end is in order if and only if every motion is. -/
theorem inOrder_emitted_iff
    (hvalues : values.Pairwise fun v w => v.timeStamp ≤ w.timeStamp) :
    InOrder d parameters (emitted d ⟨[], direction⟩ values) ↔
      History.Always (fun before v => EmitsMotion d before v → ¬ Overtaken d direction before)
        values := by
  induction values using List.reverseRecOn with
  | nil => simp [emitted, InOrder]
  | append_singleton values v ih =>
      rw [inOrder_emitted_concat hvalues, History.always_concat,
        ih (List.pairwise_append.mp hvalues).1]

end

theorem inOrder_makeEntries_iff {hidValues : List HidValue}
    (hvalues : hidValues.Pairwise fun v w => v.timeStamp ≤ w.timeStamp) (d : DeviceProperties)
    (parameters : MakeEntriesParameters) (direction : Direction) :
    ((makeEntries d hidValues parameters direction).1.Pairwise
        fun e e' => e.eventTimeStamp.timeStamp ≤ e'.eventTimeStamp.timeStamp) ↔
      (∀ before v after, hidValues = before ++ v :: after → EmitsMotion d before v →
        ¬ Overtaken d direction before) ∧ ¬ Overtaken d direction hidValues := by
  have hentries : ((makeEntries d hidValues parameters direction).1.Pairwise
      fun e e' => e.eventTimeStamp.timeStamp ≤ e'.eventTimeStamp.timeStamp) ↔
        InOrder d parameters (emissions d ⟨[], direction⟩ hidValues) := by
    rw [makeEntries_eq]
    exact List.pairwise_map
  have hbefore : InOrder d parameters (emitted d ⟨[], direction⟩ hidValues) ↔ _ :=
    inOrder_emitted_iff hvalues
  rw [hentries, emissions, flush]
  split_ifs with hnil
  · have hovertaken : ¬ Overtaken d direction hidValues := by
      rintro ⟨v, hv, -⟩
      rw [← getLast?_group_joined d ⟨[], direction⟩ rfl, List.isEmpty_iff.mp hnil] at hv
      cases hv
    rw [List.append_nil, hbefore]
    simp only [hovertaken, not_false_eq_true, and_true]
    rfl
  · have hne : (joined d ⟨[], direction⟩ hidValues).group ≠ [] := hnil ∘ List.isEmpty_iff.mpr
    rw [inOrder_concat, hbefore, forall_time_le_iff hvalues hne]
    rfl

end MakeEntries

open MakeEntries

/-- **The entries are in time order** if and only if no motion is overtaken: neither at a value that
emits it, nor at the end. -/
theorem makeEntries_timeOrder {hidValues : List HidValue}
    (hvalues : hidValues.Pairwise fun v w => v.timeStamp ≤ w.timeStamp) (d : DeviceProperties)
    (parameters : MakeEntriesParameters) (direction : Direction) :
    ((makeEntries d hidValues parameters direction).1.Pairwise
        fun e e' => e.eventTimeStamp.timeStamp ≤ e'.eventTimeStamp.timeStamp) ↔
      (∀ before v after, hidValues = before ++ v :: after → EmitsMotion d before v →
        ¬ Overtaken d direction before) ∧ ¬ Overtaken d direction hidValues :=
  inOrder_makeEntries_iff hvalues d parameters direction

/-- A click and then a motion. -/
theorem makeEntries_timeOrder_click :
    ((makeEntries { deviceId := 1 }
        [⟨1, 1, some UsagePage.button, some 1⟩,
          ⟨2, 10, some UsagePage.genericDesktop, some Usage.GenericDesktop.x⟩] {} {}).1.Pairwise
        fun e e' => e.eventTimeStamp.timeStamp ≤ e'.eventTimeStamp.timeStamp) ∧
      ¬ Overtaken { deviceId := 1 } {}
        [⟨1, 1, some UsagePage.button, some 1⟩,
          ⟨2, 10, some UsagePage.genericDesktop, some Usage.GenericDesktop.x⟩] :=
  ⟨by decide, ((makeEntries_timeOrder (by decide) _ {} _).mp (by decide)).2⟩

/-- A motion and then a click: the motion comes out behind the click. -/
theorem not_makeEntries_timeOrder :
    ¬ ∀ (hidValues : List HidValue) (d : DeviceProperties) (parameters : MakeEntriesParameters)
      (direction : Direction), (hidValues.Pairwise fun v w => v.timeStamp ≤ w.timeStamp) →
        (makeEntries d hidValues parameters direction).1.Pairwise
          fun e e' => e.eventTimeStamp.timeStamp ≤ e'.eventTimeStamp.timeStamp := by
  intro h
  have hclick := h [⟨1, 10, some UsagePage.genericDesktop, some Usage.GenericDesktop.x⟩,
    ⟨2, 1, some UsagePage.button, some 1⟩] { deviceId := 1 } {} {} (by decide)
  revert hclick
  decide

end Karabiner
