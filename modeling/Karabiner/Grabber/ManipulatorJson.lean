import Karabiner.Manipulator.ManipulatorManager.Kinds
import Karabiner.Manipulator.Types.Definitions

/-!
# The manipulators that the grabber makes

What `simple_modifications_manipulator_manager.hpp` and `fn_function_keys_manipulator_manager.hpp`
have in common: they change members of JSON values and construct a `basic` from the result.  Every
exception is caught, and then there is no manipulator.  The manipulators of the settings of a device
have a condition that asks for that device.

* `modifyMember_eq_some_iff` — what changing a member comes to.
* `FromEventDefinitionObject.modifiers_of_fromJson`, `ToEventDefinitionObject.modifiers_of_fromJson`
  — where the modifiers of a manipulator are read.
* `isFulfilled_deviceCondition` — whom the settings of a device are for.
* `LoadInput.treats_last_run` — **what was loaded last decides** what becomes of an entry, after any
  run.
-/

namespace Karabiner

open JsonUtility

/-! ### Members that are changed -/

/-- Change a member that is reached by `operator[]`: `null` becomes an object, and a member that is
not there is `null` first. -/
def modifyMember (key : String) (f : Json → Option Json) : Json → Option Json
  | .null => (f .null).map fun value => .object [(key, value)]
  | .object members =>
    (f ((members.lookup key).getD .null)).map fun value => .object (Json.set key value members)
  | _ => none

/-- The members that `operator[]` finds. -/
def membersOf : Json → Option Json.Members
  | .null => some []
  | .object members => some members
  | _ => none

/-- **What changing a member comes to.** -/
theorem modifyMember_eq_some_iff {key : String} {f : Json → Option Json} {json json' : Json} :
    modifyMember key f json = some json' ↔
      ∃ members value, membersOf json = some members ∧
        f ((members.lookup key).getD .null) = some value ∧
        json' = .object (Json.set key value members) := by
  cases json <;> simp [modifyMember, membersOf, Json.set, eq_comm]

theorem ordered_membersOf {json : Json} (h : json.Canonical) {members : Json.Members}
    (hmembers : membersOf json = some members) :
    Json.Ordered members ∧ ∀ m ∈ members, m.2.Canonical := by
  cases h with
  | null =>
      obtain rfl := Option.some.inj hmembers
      exact ⟨.nil, nofun⟩
  | object ordered members_canonical =>
      obtain rfl := Option.some.inj hmembers
      exact ⟨ordered, members_canonical⟩
  | _ => cases hmembers

theorem canonical_lookup {members : Json.Members} (h : ∀ m ∈ members, m.2.Canonical)
    (key : String) : ((members.lookup key).getD .null).Canonical := by
  cases hlookup : members.lookup key with
  | none => exact .null
  | some value =>
      obtain ⟨before, after, rfl, -⟩ := List.lookup_eq_some_iff.mp hlookup
      exact h (key, value) (List.mem_append_right _ List.mem_cons_self)

/-- Assign a member that is reached by `operator[]`. -/
def assignMember (key : String) (value : Json) : Json → Option Json :=
  modifyMember key fun _ => some value

/-- The elements that a range-based `for` goes through. -/
def rangeElements : Json → List Json
  | .array elements => elements
  | .object members => members.map Prod.snd
  | .null => []
  | json => [json]

/-! ### Reading modifiers -/

section

variable [NlohmannJson]

/-- The mandatory and the optional modifiers are read from their members. -/
theorem FromModifiersDefinition.eq_of_fromJson {members : Json.Members}
    (hordered : Json.Ordered members) {mandatory optional : Json}
    (hmandatory : members.lookup "mandatory" = some mandatory)
    (hoptional : members.lookup "optional" = some optional) {d : FromModifiersDefinition}
    (h : FromModifiersDefinition.fromJson (.object members) = .ok d) :
    Modifier.makeModifiers mandatory = .ok d.mandatoryModifiers ∧
      Modifier.makeModifiers optional = .ok d.optionalModifiers := by
  rw [FromModifiersDefinition.fromJson, readObject_object] at h
  constructor
  · have hfield := @readMembers_field _ _ _ mandatoryModifiers "mandatory" Modifier.makeModifiers
      (fun value k json value' hk hread => by
        rw [if_neg hk] at hread
        split_ifs at hread
        · obtain ⟨_, -, rfl⟩ := JsonM.bind_pure_eq_ok.mp hread
          rfl
        · rw [← Except.ok.inj hread])
      (fun value json value' hread => by
        obtain ⟨modifiers, hmodifiers, rfl⟩ := JsonM.bind_pure_eq_ok.mp hread
        exact atPath_eq_ok.mp hmodifiers) _ _ _ hordered.nodup h
    rwa [hmandatory] at hfield
  · have hfield := @readMembers_field _ _ _ optionalModifiers "optional" Modifier.makeModifiers
      (fun value k json value' hk hread => by
        rw [if_neg hk] at hread
        split_ifs at hread
        · obtain ⟨_, -, rfl⟩ := JsonM.bind_pure_eq_ok.mp hread
          rfl
        · rw [← Except.ok.inj hread])
      (fun value json value' hread => by
        obtain ⟨modifiers, hmodifiers, rfl⟩ := JsonM.bind_pure_eq_ok.mp hread
        exact atPath_eq_ok.mp hmodifiers) _ _ _ hordered.nodup h
    rwa [hoptional] at hfield

variable [Regex] [Exprtk]

/-- The modifiers of a `from` are read from its member. -/
theorem FromEventDefinitionObject.modifiers_of_fromJson {allocate : String → ℕ}
    {members : Json.Members} (hordered : Json.Ordered members) {modifiers : Json}
    (hmodifiers : members.lookup "modifiers" = some modifiers) {d : FromEventDefinitionObject}
    (h : FromEventDefinitionObject.fromJson allocate (.object members) = .ok d) :
    FromModifiersDefinition.fromJson modifiers = .ok d.fromModifiersDefinition := by
  obtain ⟨⟨d₀, defaultEventDefinition⟩, hread, h⟩ := JsonM.bind_eq_ok.mp h
  have hsame : d.fromModifiersDefinition = d₀.fromModifiersDefinition := by
    dsimp only at h
    split_ifs at h <;> cases h <;> rfl
  rw [readObject_object] at hread
  have hfield := @readMembers_field _ _ _
    (fun s : FromEventDefinitionObject × EventDefinitionObject => s.1.fromModifiersDefinition)
    "modifiers" FromModifiersDefinition.fromJson
    (fun value k json value' hk hread => by
      obtain ⟨e, -, hread⟩ := JsonM.bind_eq_ok.mp hread
      cases e with
      | some e => rw [← Except.ok.inj hread]
      | none =>
          obtain ⟨d', hoption, rfl⟩ := JsonM.bind_pure_eq_ok.mp hread
          unfold readOption at hoption
          rw [if_neg hk] at hoption
          split_ifs at hoption
          · obtain ⟨_, -, hoption⟩ := JsonM.bind_eq_ok.mp hoption
            obtain ⟨_, -, rfl⟩ := JsonM.bind_pure_eq_ok.mp hoption
            rfl
          · obtain ⟨_, -, rfl⟩ := JsonM.bind_pure_eq_ok.mp hoption
            rfl)
    (fun value json value' hread => by
      have hunknown (d : EventDefinitionObject) (j : Json) :
          d.handleJson allocate "modifiers" json j = .ok none := rfl
      rw [readMember, hunknown] at hread
      obtain ⟨d', hoption, rfl⟩ := JsonM.bind_pure_eq_ok.mp hread
      obtain ⟨modifiers, hmodifiers, rfl⟩ := JsonM.bind_pure_eq_ok.mp hoption
      exact atPath_eq_ok.mp hmodifiers) _ _ _ hordered.nodup hread
  rw [hmodifiers] at hfield
  rw [hsame]
  exact hfield

/-- The modifiers of a `to` are read from its member. -/
theorem ToEventDefinitionObject.modifiers_of_fromJson {allocate : String → ℕ}
    {members : Json.Members} (hordered : Json.Ordered members) {modifiers : Json}
    (hmodifiers : members.lookup "modifiers" = some modifiers) {d : ToEventDefinitionObject}
    (h : ToEventDefinitionObject.fromJson allocate (.object members) = .ok d) :
    Modifier.makeModifiers modifiers = .ok d.modifiers := by
  obtain ⟨d₀, hread, h⟩ := JsonM.bind_eq_ok.mp h
  split_ifs at h
  obtain rfl := Except.ok.inj h
  rw [readObject_object] at hread
  have hfield := @readMembers_field _ _ _ ToEventDefinitionObject.modifiers
    "modifiers" Modifier.makeModifiers
    (fun value k json value' hk hread => by
      obtain ⟨e, -, hread⟩ := JsonM.bind_eq_ok.mp hread
      cases e with
      | some e => rw [← Except.ok.inj hread]
      | none =>
          unfold readOption at hread
          rw [if_neg hk] at hread
          split_ifs at hread
          all_goals
            obtain ⟨_, -, hread⟩ := JsonM.bind_eq_ok.mp hread
            first
            | obtain rfl := Except.ok.inj hread
              rfl
            | obtain ⟨_, -, rfl⟩ := JsonM.bind_pure_eq_ok.mp hread
              rfl)
    (fun value json value' hread => by
      have hunknown (d : EventDefinitionObject) (j : Json) :
          d.handleJson allocate "modifiers" json j = .ok none := rfl
      rw [readMember, hunknown] at hread
      obtain ⟨modifiers, hmodifiers, rfl⟩ := JsonM.bind_pure_eq_ok.mp hread
      exact atPath_eq_ok.mp hmodifiers) _ _ _ hordered.nodup hread
  rwa [hmodifiers] at hfield

end

/-! ### Manipulators with the same conditions -/

/-- The first of some manipulators with the same conditions that takes an entry is the first that
maps it, if the conditions are fulfilled. -/
theorem find?_takes_of_conditions [Exprtk] (conditions : List Condition) (ds : List BasicDefinition)
    (front : Entry) (o : Output) :
    ((ds.map fun d => ManipulatorDefinition.basic { d with conditions := conditions }).find?
        (·.takes front o)).map ManipulatorDefinition.unconditional =
      if allFulfilled conditions front o then
        (ds.find? fun d => (ManipulatorDefinition.basic d).targets front
          o.queue.modifierFlagManager).map (ManipulatorDefinition.unconditional ∘ .basic)
      else none := by
  have htakes (d : BasicDefinition) :
      (ManipulatorDefinition.basic { d with conditions := conditions }).takes front o =
        ((ManipulatorDefinition.basic d).targets front o.queue.modifierFlagManager &&
          allFulfilled conditions front o) := rfl
  rw [List.find?_map, Option.map_map]
  cases hall : allFulfilled conditions front o with
  | true =>
      have hpred : ((fun d => ManipulatorDefinition.takes d front o) ∘ fun d : BasicDefinition =>
          .basic { d with conditions := conditions }) = fun d =>
            (ManipulatorDefinition.basic d).targets front o.queue.modifierFlagManager := by
        funext d
        show ManipulatorDefinition.takes _ front o = _
        rw [htakes, hall, Bool.and_true]
      rw [hpred]
      rfl
  | false =>
      have hnone : ds.find? ((fun d => ManipulatorDefinition.takes d front o) ∘
          fun d : BasicDefinition => .basic { d with conditions := conditions }) = none := by
        rw [List.find?_eq_none]
        intro d _
        show ¬ManipulatorDefinition.takes _ front o = true
        rw [htakes, hall, Bool.and_false]
        exact Bool.false_ne_true
      rw [hnone]
      rfl

/-! ### Constructing a manipulator -/

/-- What a `basic` is constructed from. -/
structure BasicObject where
  from_ : FromEventDefinitionObject
  to_ : List ToEventDefinitionObject

/-- Construct a `basic` from the JSON of `from` and the elements of `to`. -/
def BasicObject.construct [NlohmannJson] [Regex] [Exprtk] (allocate : String → ℕ) (fromJson : Json)
    (toElements : List Json) : JsonM BasicObject := do
  let to_ ← toElements.mapM (ToEventDefinitionObject.fromJson allocate)
  let from_ ← FromEventDefinitionObject.fromJson allocate fromJson
  return { from_, to_ }

/-- The definition of a `basic`, if all its events can be posted. -/
def BasicObject.definition [NlohmannJson] [CoreConfiguration.NaturalSort] [SharedPointers]
    [RegexSearch] [Exprtk] (o : BasicObject) : Option BasicDefinition := do
  let from_ ← o.from_.definition
  let to_ ← o.to_.mapM ToEventDefinitionObject.definition
  return { from_, to_ }

section

variable [NlohmannJson] [CoreConfiguration.NaturalSort] [SharedPointers] [RegexSearch] [Exprtk]

/-- The definition has neither timers nor conditions. -/
theorem BasicObject.definition_simple {o : BasicObject} {d : BasicDefinition}
    (h : o.definition = some d) :
    d.toIfHeldDown = none ∧ d.toDelayedAction = none ∧ d.conditions = [] := by
  unfold BasicObject.definition at h
  cases hfrom : o.from_.definition with
  | none => rw [hfrom] at h; cases h
  | some from_ =>
      cases hto : o.to_.mapM ToEventDefinitionObject.definition with
      | none => rw [hfrom, hto] at h; cases h
      | some to_ =>
          rw [hfrom, hto] at h
          cases h
          exact ⟨rfl, rfl, rfl⟩

/-- It is plain, with steady conditions, if it maps from a single event. -/
theorem BasicObject.plain_definition {o : BasicObject} {d : BasicDefinition}
    (h : o.definition = some d) (hsingle : ∃ e, d.from_.eventDefinitions = [e])
    {conditions : List Condition} (hsteady : ∀ c ∈ conditions, c.Steady) :
    BasicDefinition.Plain { d with conditions := conditions } :=
  ⟨hsingle, (definition_simple h).1, (definition_simple h).2.1, hsteady⟩

/-! ### The settings of a device -/

/-- The condition of the manipulators of a device. -/
def deviceCondition (device : CoreConfiguration.Device) : Condition :=
  (ConditionDefinition.device .deviceIf [sameKindDefinition device.identifiers]).condition

/-- The settings of the device are for the device of the entry. -/
def appliesTo (front : Entry) (o : Output) (device : CoreConfiguration.Device) : Bool :=
  match o.queue.manipulatorEnvironment.findDeviceProperties front.deviceId with
  | some p => decide (SameKind device.identifiers p.deviceIdentifiers)
  | none => false

theorem steady_deviceCondition (device : CoreConfiguration.Device) :
    (deviceCondition device).Steady :=
  fun _ _ _ _ _ => rfl

/-- **Whom the settings of a device are for.** -/
theorem isFulfilled_deviceCondition (device : CoreConfiguration.Device) (front : Entry)
    (o : Output) :
    (deviceCondition device).isFulfilled front o.queue.manipulatorEnvironment o.world =
      appliesTo front o device := by
  obtain ⟨d, hd, hfulfilled⟩ := isFulfilled_makeDeviceIfCondition device.identifiers
  rw [makeDeviceIfCondition_eq] at hd
  obtain rfl := Except.ok.inj hd
  have hcondition := hfulfilled front o.queue.manipulatorEnvironment o.world
  rw [appliesTo, Bool.eq_iff_iff]
  refine hcondition.trans ?_
  cases o.queue.manipulatorEnvironment.findDeviceProperties front.deviceId with
  | none => simp
  | some p => simp

end

/-- A device without a name. -/
def Devices.DeviceProperties.unnamed : Devices.DeviceProperties where
  deviceId := 1
  deviceIdentifiers := {}
  locationId := 0
  manufacturer := ""
  product := ""
  serialNumber := ""
  transport := ""
  isBuiltInKeyboard := false
  isBuiltInPointingDevice := false
  isBuiltInTouchBar := false
  isApple := false

/-! ### Loading -/

/-- What may happen to the connection of a manager whose manipulators are made of an `α`. -/
inductive LoadInput [Exprtk] (α : Type)
  | arrive (e : Entry)
  | manipulate (now : AbsoluteTime) (reorder : Bool)
  /-- `update`. -/
  | update (a : α)
  /-- Anything else that changes the output queue or the world. -/
  | outside (output : Output)

namespace LoadInput

variable [Exprtk] {α : Type}

/-- What was loaded last. -/
def last (a : Option α) : List (LoadInput α) → Option α
  | [] => a
  | .update a' :: is => last (some a') is
  | _ :: is => last a is

/-- The input of the connection. -/
def toKinds (definitions : α → List ManipulatorDefinition) :
    LoadInput α → KindsConnection.Input
  | .arrive e => .arrive e
  | .manipulate now reorder => .manipulate now reorder
  | .update a => .update (definitions a)
  | .outside output => .outside output

theorem lastUpdate_toKinds (definitions : α → List ManipulatorDefinition) (a : Option α)
    (is : List (LoadInput α)) :
    KindsConnection.lastUpdate ((a.map definitions).getD []) (is.map (toKinds definitions)) =
      ((last a is).map definitions).getD [] := by
  induction is generalizing a with
  | nil => rfl
  | cons i is ih =>
      cases i with
      | update a' => exact ih (some a')
      | _ => exact ih a

variable [SystemClock] [MachTimebase]

/-- The connection after a run from an empty manager. -/
def run (definitions : α → List ManipulatorDefinition) (output : Output)
    (is : List (LoadInput α)) : KindsConnection :=
  Machine.run KindsConnection.step { output := output } (is.map (toKinds definitions))

/-- **What was loaded last decides** what becomes of a new press and of a motion, after any run;
nothing does if nothing was. -/
theorem treats_last_run {definitions : α → List ManipulatorDefinition} {output : Output}
    {is : List (LoadInput α)} (hplain : ∀ a, update a ∈ is → ∀ d ∈ definitions a, d.Plain)
    {front : Entry} {rest : List Entry}
    (hinput : (run definitions output is).input.events = front :: rest)
    (valid : front.validity = .valid) (hup : front.eventType ≠ .keyUp)
    (hevent : front.event.getMomentarySwitchEvent.isSome ∨ front.event.getPointingMotion.isSome)
    (hfree : ∀ m ∈ (run definitions output is).manipulators, m.alreadyManipulated front = false)
    (now : AbsoluteTime) (reorder : Bool) :
    let c := run definitions output is
    ∃ front' o',
      Treats ((((last none is).map definitions).getD []).find? (·.takes front c.output)) front
          c.output front' o' ∧
        (c.manipulate now reorder).input = c.input.eraseFrontEvent ∧
        (c.manipulate now reorder).output = Connection.copyFront front' reorder o' := by
  have hinputs : ∀ i ∈ is.map (toKinds definitions), KindsConnection.PlainInput i := by
    intro i hi
    obtain ⟨i, hmem, rfl⟩ := List.mem_map.mp hi
    cases i with
    | update a' => exact hplain a' hmem
    | _ => trivial
  rw [← lastUpdate_toKinds definitions none is]
  exact KindsConnection.manipulate_run hinputs hinput valid hup hevent hfree now reorder

theorem treats_run {definitions : α → List ManipulatorDefinition} {output : Output}
    {is : List (LoadInput α)} (hplain : ∀ a, update a ∈ is → ∀ d ∈ definitions a, d.Plain)
    {a : α} (hlast : last none is = some a) {front : Entry} {rest : List Entry}
    (hinput : (run definitions output is).input.events = front :: rest)
    (valid : front.validity = .valid) (hup : front.eventType ≠ .keyUp)
    (hevent : front.event.getMomentarySwitchEvent.isSome ∨ front.event.getPointingMotion.isSome)
    (hfree : ∀ m ∈ (run definitions output is).manipulators, m.alreadyManipulated front = false)
    (now : AbsoluteTime) (reorder : Bool) :
    let c := run definitions output is
    ∃ front' o',
      Treats ((definitions a).find? (·.takes front c.output)) front c.output front' o' ∧
        (c.manipulate now reorder).input = c.input.eraseFrontEvent ∧
        (c.manipulate now reorder).output = Connection.copyFront front' reorder o' := by
  have htreats := treats_last_run hplain hinput valid hup hevent hfree now reorder
  rwa [hlast] at htreats

/-- The entries that arrive. -/
def arrivals (is : List (LoadInput α)) : List Entry :=
  is.filterMap fun
    | .arrive e => some e
    | _ => none

omit [SystemClock] [MachTimebase] in
theorem arrivals_append (is js : List (LoadInput α)) :
    arrivals (is ++ js) = arrivals is ++ arrivals js := List.filterMap_append

end LoadInput

end Karabiner
