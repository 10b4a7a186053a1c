import Karabiner.Grabber.ManipulatorJson
import Karabiner.Manipulator.ManipulatorManager.Kinds

/-!
# The manager of the simple modifications

`device_grabber_details/simple_modifications_manipulator_manager.hpp`: the manipulators that a
profile makes of the simple modifications and the mouse settings of its devices, and of its own
simple modifications.

A press and a motion are looked up in the profile.  `selectedPair` is the first pair that maps the
press, among those of all devices of the same kind and then those of the profile; `selectedMouse` is
the first device of the same kind with a mouse setting that is on.

* `find?_definitions_press`, `find?_definitions_motion` — the manipulators of a profile take what
  the profile says.
* `treats_of_run` — **the profile of the last update decides** what becomes of a new press and of a
  motion, after any run, whatever was loaded before.
-/

namespace Karabiner

open CoreConfiguration JsonUtility

/-! ### Definitions -/

namespace SimpleModificationsManipulatorManager

section

variable [NlohmannJson] [Regex] [Exprtk]

/-- `make_manipulator`. -/
def makeManipulator (allocate : String → ℕ) (pair : String × String) : Option BasicObject :=
  if !pair.1.isEmpty && !pair.2.isEmpty then do
    let fromJson ← NlohmannJson.parse pair.1
    let fromJson ← modifyMember "modifiers"
      (assignMember "optional" (.array [.string "any"])) fromJson
    let toJson ← NlohmannJson.parse pair.2
    (BasicObject.construct allocate fromJson (rangeElements toJson)).toOption
  else none

variable [NaturalSort] [SharedPointers] [RegexSearch]

/-- The definition of the manipulator of a pair. -/
def pairDefinition (allocate : String → ℕ) (pair : String × String) : Option BasicDefinition :=
  (makeManipulator allocate pair).bind BasicObject.definition

/-- A pair that can be run: if it makes a manipulator, that maps from a single event, so that a
press does not wait for others, and its events can be posted. -/
def Runs (allocate : String → ℕ) (pair : String × String) : Prop :=
  ∀ o, makeManipulator allocate pair = some o →
    ∃ d, o.definition = some d ∧ ∃ e, d.from_.eventDefinitions = [e]

/-- The condition of the manipulators of a device.  Nothing is added if it cannot be made. -/
def withDeviceCondition (device : Device) (make : List Condition → ManipulatorDefinition) :
    Option ManipulatorDefinition :=
  match makeDeviceIfCondition device.identifiers with
  | .ok c => some (make [c.condition])
  | .error _ => none

omit [Regex] in
/-- The manipulator of the mouse settings of a device. -/
def mouseDefinition (device : Device) : Option ManipulatorDefinition :=
  match MouseBasicDefinition.deviceJson device with
  | some json =>
    match MouseBasicDefinition.fromJson json with
    | .ok d => withDeviceCondition device (.mouseBasic d)
    | .error _ => none
  | none => none

/-- The manipulators of a device. -/
def deviceDefinitions (allocate : String → ℕ) (device : Device) : List ManipulatorDefinition :=
  (device.simpleModifications.pairs.filterMap fun pair =>
    (pairDefinition allocate pair).bind fun d =>
      withDeviceCondition device fun conditions => .basic { d with conditions := conditions }) ++
    (mouseDefinition device).toList

/-- The manipulators that `update` makes of a profile. -/
def definitions (allocate : String → ℕ) (profile : Profile) : List ManipulatorDefinition :=
  profile.devices.flatMap (deviceDefinitions allocate) ++
    (profile.simpleModifications.pairs.filterMap (pairDefinition allocate)).map .basic

/-- Every pair of the profile can be run. -/
def AllRun (allocate : String → ℕ) (profile : Profile) : Prop :=
  (∀ device ∈ profile.devices, ∀ pair ∈ device.simpleModifications.pairs, Runs allocate pair) ∧
    ∀ pair ∈ profile.simpleModifications.pairs, Runs allocate pair

/-! ### What the profile says -/

/-- What the pairs that are for the device of the entry make, in their order. -/
def candidates (allocate : String → ℕ) (profile : Profile) (front : Entry) (o : Output) :
    List BasicDefinition :=
  ((profile.devices.filter (appliesTo front o)).flatMap (·.simpleModifications.pairs) ++
    profile.simpleModifications.pairs).filterMap (pairDefinition allocate)

/-- The first pair that maps a press. -/
def selectedPair (allocate : String → ℕ) (profile : Profile) (front : Entry) (o : Output) :
    Option BasicDefinition :=
  (candidates allocate profile front o).find? fun d =>
    (ManipulatorDefinition.basic d).targets front o.queue.modifierFlagManager

/-- The first device of the kind with a mouse setting that is on. -/
def selectedMouse (profile : Profile) (front : Entry) (o : Output) :
    Option MouseBasicDefinition :=
  (profile.devices.find? fun device =>
    appliesTo front o device && (MouseBasicDefinition.ofDevice device).isOn).map
      MouseBasicDefinition.ofDevice

/-! ### The manipulators of a profile -/

omit [Regex] [Exprtk] in
/-- The condition for a device can always be made. -/
theorem withDeviceCondition_eq (device : Device)
    (make : List Condition → ManipulatorDefinition) :
    withDeviceCondition device make = some (make [deviceCondition device]) := by
  rw [withDeviceCondition, makeDeviceIfCondition_eq]
  rfl

omit [Regex] [Exprtk] in
/-- A device has a `mouse_basic` if one of its options is on. -/
theorem mouseDefinition_eq (device : Device) :
    mouseDefinition device =
      if (MouseBasicDefinition.ofDevice device).isOn then
        some (.mouseBasic (MouseBasicDefinition.ofDevice device) [deviceCondition device])
      else none := by
  have harrives := MouseBasicDefinition.fromJson_deviceJson device
  unfold mouseDefinition
  cases hjson : MouseBasicDefinition.deviceJson device with
  | none =>
      rw [hjson, Option.map_none] at harrives
      split_ifs at harrives with hon
      rw [if_neg hon]
  | some json =>
      rw [hjson, Option.map_some] at harrives
      split_ifs at harrives with hon
      dsimp only
      rw [if_pos hon, Option.some.inj harrives]
      exact withDeviceCondition_eq device _

/-- The manipulators of a device, its pairs before its `mouse_basic`. -/
theorem deviceDefinitions_eq (allocate : String → ℕ) (device : Device) :
    deviceDefinitions allocate device =
      ((device.simpleModifications.pairs.filterMap (pairDefinition allocate)).map fun d =>
        .basic { d with conditions := [deviceCondition device] }) ++
        (mouseDefinition device).toList := by
  rw [deviceDefinitions, List.map_filterMap]
  congr 1
  refine List.filterMap_congr fun pair _ => ?_
  cases pairDefinition allocate pair with
  | none => rfl
  | some d =>
      exact withDeviceCondition_eq device fun conditions =>
        .basic { d with conditions := conditions }

/-- A pair that can be run makes a plain manipulator. -/
theorem plain_of_runs {allocate : String → ℕ} {pair : String × String} {d : BasicDefinition}
    (hruns : Runs allocate pair) (h : pairDefinition allocate pair = some d)
    {conditions : List Condition} (hsteady : ∀ c ∈ conditions, c.Steady) :
    BasicDefinition.Plain { d with conditions := conditions } := by
  obtain ⟨o, ho, hd⟩ := Option.bind_eq_some_iff.mp h
  obtain ⟨d', hd', hsingle⟩ := hruns o ho
  obtain rfl : d' = d := Option.some.inj (hd'.symm.trans hd)
  exact o.plain_definition hd hsingle hsteady

/-- A pair brings no condition of its own. -/
theorem conditions_pairDefinition {allocate : String → ℕ} {pair : String × String}
    {d : BasicDefinition} (h : pairDefinition allocate pair = some d) : d.conditions = [] := by
  obtain ⟨o, -, hd⟩ := Option.bind_eq_some_iff.mp h
  exact (o.definition_simple hd).2.2

omit [Regex] in
/-- What is asked about the device is not changed by the manipulators. -/
theorem steady_singleton (device : Device) : ∀ c ∈ [deviceCondition device], c.Steady := by
  intro c hc
  obtain rfl := List.mem_singleton.mp hc
  exact steady_deviceCondition device

omit [Regex] in
/-- The one condition asks whether the entry is of the device. -/
theorem allFulfilled_singleton (device : Device) (front : Entry) (o : Output) :
    allFulfilled [deviceCondition device] front o = appliesTo front o device := by
  rw [allFulfilled, List.all_cons, List.all_nil, Bool.and_true, isFulfilled_deviceCondition]

/-- If all pairs can be run the manipulators are plain. -/
theorem plain_definitions {allocate : String → ℕ} {profile : Profile}
    (hruns : AllRun allocate profile) : ∀ d ∈ definitions allocate profile, d.Plain := by
  intro d hd
  rcases List.mem_append.mp hd with hd | hd
  · obtain ⟨device, hdevice, hd⟩ := List.mem_flatMap.mp hd
    rw [deviceDefinitions_eq] at hd
    rcases List.mem_append.mp hd with hd | hd
    · obtain ⟨d', hd', rfl⟩ := List.mem_map.mp hd
      obtain ⟨pair, hpair, hmake⟩ := List.mem_filterMap.mp hd'
      exact plain_of_runs (hruns.1 device hdevice pair hpair) hmake (steady_singleton device)
    · rw [mouseDefinition_eq, Option.mem_toList] at hd
      split_ifs at hd
      obtain rfl := Option.some.inj hd
      exact steady_singleton device
  · obtain ⟨d', hd', rfl⟩ := List.mem_map.mp hd
    obtain ⟨pair, hpair, hmake⟩ := List.mem_filterMap.mp hd'
    have hsteady : ∀ c ∈ d'.conditions, c.Steady := by
      rw [conditions_pairDefinition hmake]
      exact nofun
    exact plain_of_runs (hruns.2 pair hpair) hmake hsteady

/-! ### What the manipulators of a profile take -/

omit [Regex] in
/-- With the condition it takes what it takes without, if that is of the device. -/
theorem takes_withDeviceCondition (d : BasicDefinition) (device : Device) (front : Entry)
    (o : Output) :
    (ManipulatorDefinition.basic { d with conditions := [deviceCondition device] }).takes front o =
      ((ManipulatorDefinition.basic d).targets front o.queue.modifierFlagManager &&
        appliesTo front o device) :=
  congrArg _ (allFulfilled_singleton device front o)

/-- The pairs of a device that take a press are those that map it, if they are for the device of the
entry. -/
theorem filter_deviceDefinitions_press (allocate : String → ℕ) (device : Device) {front : Entry}
    (hpress : front.event.getPointingMotion = none) (o : Output) :
    ((deviceDefinitions allocate device).filter (·.takes front o)).map
        ManipulatorDefinition.unconditional =
      if appliesTo front o device then
        ((device.simpleModifications.pairs.filterMap (pairDefinition allocate)).filter fun d =>
          (ManipulatorDefinition.basic d).targets front o.queue.modifierFlagManager).map
            (ManipulatorDefinition.unconditional ∘ .basic)
      else [] := by
  have hmouse : (mouseDefinition device).toList.filter (·.takes front o) = [] := by
    rw [List.filter_eq_nil_iff]
    intro d hd
    rw [mouseDefinition_eq, Option.mem_toList] at hd
    split_ifs at hd
    obtain rfl := Option.some.inj hd
    simp [ManipulatorDefinition.takes, ManipulatorDefinition.targets, hpress]
  rw [deviceDefinitions_eq, List.filter_append, hmouse, List.append_nil, List.filter_map,
    List.map_map]
  split_ifs with happlies
  · have hpred : ((fun d => ManipulatorDefinition.takes d front o) ∘ fun d : BasicDefinition =>
        .basic { d with conditions := [deviceCondition device] }) =
          fun d => (ManipulatorDefinition.basic d).targets front o.queue.modifierFlagManager := by
      funext d
      show ManipulatorDefinition.takes _ front o = _
      rw [takes_withDeviceCondition, happlies, Bool.and_true]
    rw [hpred]
    rfl
  · rw [List.map_eq_nil_iff, List.filter_eq_nil_iff]
    intro d _
    show ¬ManipulatorDefinition.takes _ front o = true
    rw [takes_withDeviceCondition, Bool.eq_false_iff.mpr happlies, Bool.and_false]
    exact Bool.false_ne_true

/-- **The manipulators of a profile take a press** as the profile says. -/
theorem find?_definitions_press {allocate : String → ℕ} {profile : Profile}
    {front : Entry} (hpress : front.event.getPointingMotion = none) (o : Output) :
    ((definitions allocate profile).find? (·.takes front o)).map
        ManipulatorDefinition.unconditional =
      (selectedPair allocate profile front o).map
        (ManipulatorDefinition.unconditional ∘ .basic) := by
  have hdevices : ((profile.devices.flatMap (deviceDefinitions allocate)).filter
        (·.takes front o)).map ManipulatorDefinition.unconditional =
      ((((profile.devices.filter (appliesTo front o)).flatMap
        (·.simpleModifications.pairs)).filterMap (pairDefinition allocate)).filter fun d =>
          (ManipulatorDefinition.basic d).targets front o.queue.modifierFlagManager).map
            (ManipulatorDefinition.unconditional ∘ .basic) := by
    induction profile.devices with
    | nil => rfl
    | cons device devices ih =>
        rw [List.flatMap_cons, List.filter_append, List.map_append, ih,
          filter_deviceDefinitions_press allocate device hpress, List.filter_cons]
        split_ifs
        · rw [List.flatMap_cons, List.filterMap_append, List.filter_append, List.map_append]
        · rw [List.nil_append]
  have hprofile : (((profile.simpleModifications.pairs.filterMap (pairDefinition allocate)).map
        .basic).filter (·.takes front o)).map ManipulatorDefinition.unconditional =
      ((profile.simpleModifications.pairs.filterMap (pairDefinition allocate)).filter fun d =>
        (ManipulatorDefinition.basic d).targets front o.queue.modifierFlagManager).map
          (ManipulatorDefinition.unconditional ∘ .basic) := by
    rw [List.filter_map, List.map_map]
    congr 1
    refine List.filter_congr fun d hd => ?_
    obtain ⟨pair, -, hmake⟩ := List.mem_filterMap.mp hd
    show ManipulatorDefinition.takes (.basic d) front o = _
    have hall : allFulfilled d.conditions front o = true := by
      rw [conditions_pairDefinition hmake]
      rfl
    rw [ManipulatorDefinition.takes, ManipulatorDefinition.conditions, hall, Bool.and_true]
  rw [← List.head?_filter, ← List.head?_map, selectedPair, ← List.head?_filter, ← List.head?_map,
    candidates, definitions, List.filterMap_append, List.filter_append, List.filter_append,
    List.map_append, List.map_append, hdevices, hprofile]

/-- **The manipulators of a profile take a motion** as the profile says. -/
theorem find?_definitions_motion {allocate : String → ℕ} {profile : Profile} {front : Entry}
    {motion : PointingMotion} (hmotion : front.event = .pointingMotion motion) (o : Output) :
    ((definitions allocate profile).find? (·.takes front o)).map
        ManipulatorDefinition.unconditional =
      (selectedMouse profile front o).map (.mouseBasic · []) := by
  have hbasic (d : BasicDefinition) :
      (ManipulatorDefinition.basic d).takes front o = false := by
    have htest : d.from_.testEvent front.event = false := by
      refine Bool.eq_false_iff.mpr fun htest => ?_
      obtain ⟨e, he⟩ := FromEventDefinition.exists_of_testEvent htest
      simp [hmotion] at he
    simp [ManipulatorDefinition.takes, ManipulatorDefinition.targets, htest]
  have hbasics (ds : List BasicDefinition) (f : BasicDefinition → BasicDefinition) :
      (ds.map fun d => ManipulatorDefinition.basic (f d)).find? (·.takes front o) = none := by
    rw [List.find?_eq_none]
    intro d hd
    obtain ⟨d, -, rfl⟩ := List.mem_map.mp hd
    simp [hbasic]
  have hprofile : ((profile.simpleModifications.pairs.filterMap (pairDefinition allocate)).map
      ManipulatorDefinition.basic).find? (·.takes front o) = none := hbasics _ id
  rw [definitions, List.find?_append, hprofile, Option.or_none, selectedMouse]
  induction profile.devices with
  | nil => rfl
  | cons device devices ih =>
      rw [List.flatMap_cons, List.find?_append, deviceDefinitions_eq, List.find?_append, hbasics,
        Option.none_or, mouseDefinition_eq, List.find?_cons]
      cases hon : (MouseBasicDefinition.ofDevice device).isOn with
      | false =>
          rw [if_neg (by simp), Bool.and_false]
          exact ih
      | true =>
          have htakes : ManipulatorDefinition.takes (.mouseBasic
              (MouseBasicDefinition.ofDevice device) [deviceCondition device]) front o =
                appliesTo front o device := by
            rw [ManipulatorDefinition.takes, ManipulatorDefinition.conditions,
              allFulfilled_singleton]
            simp [ManipulatorDefinition.targets, hon, hmotion, Event.getPointingMotion]
          rw [if_pos rfl, Option.toList_some, List.find?_cons, htakes, Bool.and_true]
          cases appliesTo front o device with
          | false => exact ih
          | true => rfl

/-! ### Runs -/

/-- What the profile has for an entry. -/
def selected (allocate : String → ℕ) (profile : Profile) (front : Entry) (o : Output) :
    Option ManipulatorDefinition :=
  match front.event with
  | .pointingMotion _ => (selectedMouse profile front o).map (.mouseBasic · [])
  | _ => (selectedPair allocate profile front o).map .basic

/-- The first manipulator that takes the entry is, but for its condition, the one selected. -/
theorem unconditional_selected {allocate : String → ℕ} {profile : Profile} {front : Entry}
    (o : Output) :
    ((definitions allocate profile).find? (·.takes front o)).map
        ManipulatorDefinition.unconditional =
      (selected allocate profile front o).map ManipulatorDefinition.unconditional := by
  unfold selected
  split
  · next motion hmotion =>
      rw [find?_definitions_motion hmotion, Option.map_map]
      rfl
  · next hpress =>
      have hnone : front.event.getPointingMotion = none := by
        cases hevent : front.event with
        | pointingMotion motion => exact absurd hevent (hpress motion)
        | _ => rfl
      rw [find?_definitions_press hnone, Option.map_map]

end

section

variable [NlohmannJson] [Regex] [Exprtk] [NaturalSort] [SharedPointers] [RegexSearch]
  [SystemClock] [MachTimebase]

/-- The connection after a run from an empty manager. -/
abbrev run (allocate : String → ℕ) (output : Output) (is : List (LoadInput Profile)) :
    KindsConnection :=
  LoadInput.run (definitions allocate) output is

/-- **The profile of the last update decides** what becomes of a new press and of a motion, after
any run, whatever was loaded before. -/
theorem treats_of_run {allocate : String → ℕ} {output : Output} {is : List (LoadInput Profile)}
    (hruns : ∀ profile, .update profile ∈ is → AllRun allocate profile) {profile : Profile}
    (hlast : LoadInput.last none is = some profile) {front : Entry} {rest : List Entry}
    (hinput : (run allocate output is).input.events = front :: rest)
    (valid : front.validity = .valid) (hup : front.eventType ≠ .keyUp)
    (hevent : front.event.getMomentarySwitchEvent.isSome ∨ front.event.getPointingMotion.isSome)
    (hfree : ∀ m ∈ (run allocate output is).manipulators, m.alreadyManipulated front = false)
    (now : AbsoluteTime) (reorder : Bool) :
    let c := run allocate output is
    ∃ front' o',
      Treats (selected allocate profile front c.output) front c.output front' o' ∧
        (c.manipulate now reorder).input = c.input.eraseFrontEvent ∧
        (c.manipulate now reorder).output = Connection.copyFront front' reorder o' := by
  have hplain : ∀ profile, .update profile ∈ is → ∀ d ∈ definitions allocate profile, d.Plain :=
    fun profile' hmem => plain_definitions (hruns profile' hmem)
  obtain ⟨front', o', htreats, hmanipulate⟩ :=
    LoadInput.treats_run hplain hlast hinput valid hup hevent hfree now reorder
  exact ⟨front', o', Treats.of_map_unconditional (unconditional_selected _) htreats, hmanipulate⟩

end

/-! ### A run -/

/-- A profile with one pair. -/
def profileOfPair (pair : String × String) : Profile :=
  { Profile.bare with simpleModifications := { pairs := [pair] } }

/-- The texts of a pair that maps `caps_lock` to `escape`. -/
def capsLockToEscape : List (String × Json) := [
  ("from", .object [("key_code", .string "caps_lock")]),
  ("to", .array [.object [("key_code", .string "escape")]])]

/-- `caps_lock` is pressed. -/
def capsLockDown : Entry where
  deviceId := 1
  eventTimeStamp := { timeStamp := 0 }
  event := .momentarySwitchEvent (.ofModifierFlag .capsLock)
  eventType := .keyDown
  originalEvent := .momentarySwitchEvent (.ofModifierFlag .capsLock)
  state := .original

/-- `treats_of_run` for `caps_lock`, after a profile that maps it has been loaded. -/
theorem treats_of_run_capsLockDown :
    letI := NlohmannJson.ofTable capsLockToEscape
    letI : Regex := ⟨fun _ => none⟩
    letI := Exprtk.singleVariable
    letI : NaturalSort := .unordered
    letI : SharedPointers := ⟨fun _ => .unnamed, fun _ => .load .loose none⟩
    letI : RegexSearch := ⟨fun _ _ => false⟩
    letI : SystemClock := ⟨fun _ => 0⟩
    letI : MachTimebase := ⟨1, 1⟩
    let profile := profileOfPair ("from", "to")
    let c := run (fun _ => 0) ⟨{}, .initial⟩ [.update profile, .arrive capsLockDown]
    (selected (fun _ => 0) profile capsLockDown c.output).isSome = true ∧
      ∃ front' o',
        Treats (selected (fun _ => 0) profile capsLockDown c.output) capsLockDown c.output front'
            o' ∧
          (c.manipulate 0 false).input = c.input.eraseFrontEvent ∧
          (c.manipulate 0 false).output = Connection.copyFront front' false o' :=
  letI := NlohmannJson.ofTable capsLockToEscape
  letI : Regex := ⟨fun _ => none⟩
  letI := Exprtk.singleVariable
  letI : NaturalSort := .unordered
  letI : SharedPointers := ⟨fun _ => .unnamed, fun _ => .load .loose none⟩
  letI : RegexSearch := ⟨fun _ _ => false⟩
  letI : SystemClock := ⟨fun _ => 0⟩
  letI : MachTimebase := ⟨1, 1⟩
  have hruns : Runs (fun _ => 0) ("from", "to") := by
    have hmake : ∃ o d, makeManipulator (fun _ => 0) ("from", "to") = some o ∧
        o.definition = some d ∧ ∃ e, d.from_.eventDefinitions = [e] :=
      ⟨_, _, rfl, rfl, _, rfl⟩
    obtain ⟨o, d, ho, hd, hsingle⟩ := hmake
    intro o' ho'
    obtain rfl := Option.some.inj (ho.symm.trans ho')
    exact ⟨d, hd, hsingle⟩
  have hall : ∀ profile, LoadInput.update profile ∈
      [.update (profileOfPair ("from", "to")), .arrive capsLockDown] →
        AllRun (fun _ => 0) profile := by
    intro profile hprofile
    obtain rfl : profile = profileOfPair ("from", "to") := by simpa using hprofile
    exact ⟨nofun, fun pair hpair => List.mem_singleton.mp hpair ▸ hruns⟩
  ⟨rfl, treats_of_run hall rfl rfl rfl (by decide) (.inl rfl)
    (fun m hm => by obtain rfl := List.mem_singleton.mp hm; rfl) 0 false⟩

end SimpleModificationsManipulatorManager

end Karabiner
