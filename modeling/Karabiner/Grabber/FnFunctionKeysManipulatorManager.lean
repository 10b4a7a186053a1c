import Karabiner.Grabber.ManipulatorJson
import Karabiner.Manipulator.ManipulatorManager.Kinds
import Karabiner.Manipulator.Types.FromModifiersDefinition

/-!
# The manager of the function keys

`device_grabber_details/fn_function_keys_manipulator_manager.hpp`: the manipulators that a profile
makes of the function keys of its devices and of its own, which depend on whether the system uses
F1, F2, etc. as standard function keys.

`selected` is what there is for an entry: a standard function key, else the first pair that maps it,
else a key which macOS will ignore.

* `makeFunctionKeyManipulator_spec` — **what a pair makes**: when `fn` is mandatory, and which
  events are sent with it.
* `find?_definitions` — the manipulators of a profile take what is selected.
* `treats_selected_of_run` — **the settings of the last update decide** what becomes of a new press,
  after any run; `passes_of_run` and `standard_of_run` are the two uses of the function keys.
-/

namespace Karabiner

open CoreConfiguration JsonUtility

namespace FnFunctionKeysManipulatorManager

/-! ### Definitions -/

/-- `f1` to `f12`. -/
def functionKeys : List String :=
  ["f1", "f2", "f3", "f4", "f5", "f6", "f7", "f8", "f9", "f10", "f11", "f12"]

/-- `j.contains("key_code") && f1_f12_key(j["key_code"])`.  A `key_code` that is no string cannot be
converted to one. -/
def hasFunctionKey : Json → Option Bool
  | .object members =>
    match members.lookup "key_code" with
    | some (.string keyCode) => some (keyCode ∈ functionKeys)
    | some _ => none
    | none => some false
  | _ => some false

/-- `push_back("fn")`, unless the value is an object with that key. -/
def pushBackFn : Json → Option Json
  | .null => some (.array [.string "fn"])
  | .array elements => some (.array (elements ++ [.string "fn"]))
  | .object members => if (members.lookup "fn").isSome then some (.object members) else none
  | _ => none

/-- The body of the loop over `to_json`. -/
def toElement (fromMandatoryModifiersFn : Bool) (j : Json) : Option Json := do
  let functionKey ← hasFunctionKey j
  let j ←
    if functionKey && !fromMandatoryModifiersFn then modifyMember "modifiers" pushBackFn j
    else some j
  if fromMandatoryModifiersFn then
    -- Do not append fn modifier to f1–f12.
    if functionKey then some j else modifyMember "modifiers" pushBackFn j
  else some j

/-- The modifiers of `from_json`. -/
def fromModifiers (fromMandatoryModifiersFn : Bool) (fromJson : Json) : Option Json := do
  let mandatory := if fromMandatoryModifiersFn then [.string "fn"] else []
  let fromJson ← modifyMember "modifiers" (assignMember "mandatory" (.array mandatory)) fromJson
  modifyMember "modifiers" (assignMember "optional" (.array [.string "any"])) fromJson

section

variable [NlohmannJson] [Regex] [Exprtk]

/-- `make_function_key_manipulator`. -/
def makeFunctionKeyManipulator (allocate : String → ℕ) (pair : String × String)
    (fromMandatoryModifiersFn : Bool) : Option BasicObject := do
  let fromJson ← NlohmannJson.parse pair.1
  if fromJson.isEmpty then none
  else
    let fromJson ← fromModifiers fromMandatoryModifiersFn fromJson
    let toJson ← NlohmannJson.parse pair.2
    if toJson.isEmpty then none
    else
      let elements ← (rangeElements toJson).mapM (toElement fromMandatoryModifiersFn)
      (BasicObject.construct allocate fromJson elements).toOption

/-- `fn` with a function key is that function key. -/
def standardFunctionKey (allocate : String → ℕ) (keyCode : String) : JsonM BasicObject :=
  BasicObject.construct allocate
    (.object [
      ("key_code", .string keyCode),
      ("modifiers", .object [
        ("mandatory", .array [.string "fn"]),
        ("optional", .array [.string "any"])])])
    [.object [("key_code", .string keyCode), ("modifiers", .array [.string "fn"])]]

/-- Touch ID is the lock key. -/
def touchId (allocate : String → ℕ) : JsonM BasicObject :=
  BasicObject.construct allocate
    (.object [
      ("consumer_key_code", .string "menu"),
      ("modifiers", .object [("optional", .array [.string "any"])])])
    [.object [("consumer_key_code", .string "al_terminal_lock_or_screensaver")]]

/-- The application launch buttons and the applications. -/
def applications : List (String × String) := [
  ("al_consumer_control_configuration", "Music"), ("al_word_processor", "Pages"),
  ("al_text_editor", "TextEdit"), ("al_spreadsheet", "Numbers"),
  ("al_presentation_app", "Keynote"), ("al_email_reader", "Mail"), ("al_calculator", "Calculator"),
  ("al_local_machine_browser", "Finder"), ("al_internet_browser", "Safari"),
  ("al_dictionary", "Dictionary")]

/-- An application launch button opens its application. -/
def applicationLaunch (allocate : String → ℕ) (application : String × String) :
    JsonM BasicObject :=
  BasicObject.construct allocate
    (.object [
      ("consumer_key_code", .string application.1),
      ("modifiers", .object [("mandatory", .array [.string "any"])])])
    [.object [("shell_command", .string ("open -a '" ++ application.2 ++ ".app'"))]]

variable [NaturalSort] [SharedPointers] [RegexSearch]

/-- `push_back_condition` for each. -/
def withConditions (conditions : List (JsonM ConditionDefinition)) (d : BasicDefinition) :
    Option BasicDefinition :=
  match conditions.mapM id with
  | .ok conditions => some { d with conditions := conditions.map ConditionDefinition.condition }
  | .error _ => none

/-- The definition of the manipulator of a pair. -/
def pairDefinition (allocate : String → ℕ) (fromMandatoryModifiersFn : Bool)
    (pair : String × String) : Option BasicDefinition :=
  (makeFunctionKeyManipulator allocate pair fromMandatoryModifiersFn).bind BasicObject.definition

/-- The definition that a manipulator without conditions has. -/
def fixedDefinition (o : JsonM BasicObject) : Option BasicDefinition :=
  o.toOption.bind BasicObject.definition

/-- The manipulators of the standard function keys. -/
def standardDefinitions (allocate : String → ℕ) (fromMandatoryModifiersFn : Bool) :
    List BasicDefinition :=
  if fromMandatoryModifiersFn then []
  else functionKeys.filterMap fun keyCode =>
    fixedDefinition (standardFunctionKey allocate keyCode)

/-- The manipulators of the keys which macOS will ignore. -/
def fixedDefinitions (allocate : String → ℕ) : List BasicDefinition :=
  (fixedDefinition (touchId allocate)).toList ++
    applications.filterMap fun application =>
      fixedDefinition (applicationLaunch allocate application)

/-- The manipulators of a device. -/
def deviceDefinitions (allocate : String → ℕ) (fromMandatoryModifiersFn : Bool) (device : Device) :
    List BasicDefinition :=
  device.fnFunctionKeys.pairs.filterMap fun pair =>
    (pairDefinition allocate fromMandatoryModifiersFn pair).bind
      (withConditions [makeEventChangedIfCondition false, makeDeviceUnlessTouchBarCondition,
        makeDeviceIfCondition device.identifiers])

/-- The manipulators that `update` makes of a profile. -/
def definitions (allocate : String → ℕ) (profile : Profile)
    (properties : SystemPreferencesProperties) : List BasicDefinition :=
  let fromMandatoryModifiersFn := properties.useFkeysAsStandardFunctionKeys
  standardDefinitions allocate fromMandatoryModifiersFn ++
  profile.devices.flatMap (deviceDefinitions allocate fromMandatoryModifiersFn) ++
  (profile.fnFunctionKeys.pairs.filterMap fun pair =>
    (pairDefinition allocate fromMandatoryModifiersFn pair).bind
      (withConditions [makeEventChangedIfCondition false, makeDeviceUnlessTouchBarCondition])) ++
  fixedDefinitions allocate

end

/-! ### What a pair makes -/

/-- The modifiers that `fromModifiers` assigns. -/
theorem fromModifiers_eq_some {fn : Bool} {json json' : Json} (hcanonical : json.Canonical)
    (h : fromModifiers fn json = some json') :
    ∃ members modifiers, json' = .object members ∧ Json.Ordered members ∧
      members.lookup "modifiers" = some (.object modifiers) ∧ Json.Ordered modifiers ∧
      modifiers.lookup "mandatory" = some (.array (if fn then [.string "fn"] else [])) ∧
      modifiers.lookup "optional" = some (.array [.string "any"]) := by
  obtain ⟨json₁, hmandatory, hoptional⟩ := Option.bind_eq_some_iff.mp h
  obtain ⟨members, value, hmembers, hvalue, rfl⟩ := modifyMember_eq_some_iff.mp hmandatory
  obtain ⟨modifiers, mandatory, hmodifiers, hassign, rfl⟩ := modifyMember_eq_some_iff.mp hvalue
  obtain rfl := Option.some.inj hassign
  obtain ⟨members', value', hmembers', hvalue', rfl⟩ := modifyMember_eq_some_iff.mp hoptional
  obtain rfl := Option.some.inj hmembers'
  rw [Json.lookup_set_self, Option.getD_some] at hvalue'
  obtain ⟨modifiers', optional, hmodifiers', hassign', rfl⟩ := modifyMember_eq_some_iff.mp hvalue'
  obtain rfl := Option.some.inj hassign'
  obtain rfl := Option.some.inj hmodifiers'
  obtain ⟨hordered, hmember⟩ := ordered_membersOf hcanonical hmembers
  obtain ⟨hordered', -⟩ := ordered_membersOf (canonical_lookup hmember "modifiers") hmodifiers
  refine ⟨_, _, rfl, (hordered.set _ _).set _ _, Json.lookup_set_self _ _ _,
    (hordered'.set _ _).set _ _, ?_, Json.lookup_set_self _ _ _⟩
  rw [Json.lookup_set_of_ne (by decide), Json.lookup_set_self]

/-- The member of an element that `fn` is appended to. -/
theorem lookup_modifyMember_pushBackFn {j j' : Json} (hcanonical : j.Canonical)
    (h : modifyMember "modifiers" pushBackFn j = some j') :
    ∃ members, j' = .object members ∧ Json.Ordered members ∧
      ((∃ elements, members.lookup "modifiers" = some (.array (elements ++ [.string "fn"]))) ∨
        ∃ modifiers, members.lookup "modifiers" = some (.object modifiers)) := by
  obtain ⟨members, value, hmembers, hvalue, rfl⟩ := modifyMember_eq_some_iff.mp h
  obtain ⟨hordered, -⟩ := ordered_membersOf hcanonical hmembers
  refine ⟨_, rfl, hordered.set _ _, ?_⟩
  rw [Json.lookup_set_self]
  generalize (members.lookup "modifiers").getD .null = old at hvalue
  cases old with
  | null =>
      obtain rfl := Option.some.inj hvalue
      exact .inl ⟨[], rfl⟩
  | array elements =>
      obtain rfl := Option.some.inj hvalue
      exact .inl ⟨elements, rfl⟩
  | object modifiers =>
      rw [pushBackFn] at hvalue
      split_ifs at hvalue
      obtain rfl := Option.some.inj hvalue
      exact .inr ⟨modifiers, rfl⟩
  | _ => cases hvalue

/-- An element is sent with `fn`, unless `fn` is mandatory and it is a function key, or neither. -/
def NeedsFn (fromMandatoryModifiersFn : Bool) (j : Json) : Prop :=
  ∃ functionKey, hasFunctionKey j = some functionKey ∧ functionKey ≠ fromMandatoryModifiersFn

/-- An element gets fn appended, if it needs it, and stays as it is otherwise. -/
theorem toElement_eq_some {fn : Bool} {j j' : Json} (h : toElement fn j = some j') :
    (NeedsFn fn j ∧ modifyMember "modifiers" pushBackFn j = some j') ∨
      (¬NeedsFn fn j ∧ j' = j) := by
  obtain ⟨functionKey, hfunctionKey, h⟩ := Option.bind_eq_some_iff.mp h
  have hneeds : NeedsFn fn j ↔ functionKey ≠ fn := by
    rw [NeedsFn, hfunctionKey]
    simp
  rw [hneeds]
  cases functionKey <;> cases fn <;> simp_all

section

variable [NlohmannJson]

/-- `fn` is among the modifiers of an array that ends with it. -/
theorem fn_mem_of_makeModifiers {elements : List Json} {modifiers : Finset Modifier}
    (h : Modifier.makeModifiers (.array (elements ++ [.string "fn"])) = .ok modifiers) :
    .fn ∈ modifiers := by
  obtain ⟨values, hvalues, rfl⟩ := JsonM.bind_pure_eq_ok.mp h
  rw [List.mapM_append] at hvalues
  obtain ⟨before, -, hvalues⟩ := JsonM.bind_eq_ok.mp hvalues
  obtain ⟨last, hlast, rfl⟩ := JsonM.bind_pure_eq_ok.mp hvalues
  obtain rfl : [Modifier.fn] = last := Except.ok.inj hlast
  simp

/-- What is parsed lists its members in the order of their keys, as `nlohmann::json` does. -/
def ParsesCanonical : Prop := ∀ text json, NlohmannJson.parse text = some json → json.Canonical

omit [NlohmannJson] in
/-- A table of canonical values is a parser that returns canonical values. -/
theorem parsesCanonical_ofTable {table : List (String × Json)}
    (h : ∀ entry ∈ table, entry.2.Canonical) : @ParsesCanonical (NlohmannJson.ofTable table) := by
  intro text json hparse
  obtain ⟨before, after, rfl, -⟩ := List.lookup_eq_some_iff.mp hparse
  exact h (text, json) (List.mem_append_right _ List.mem_cons_self)

omit [NlohmannJson] in
/-- The elements of a canonical value are canonical. -/
theorem canonical_rangeElements {json : Json} (h : json.Canonical) :
    ∀ j ∈ rangeElements json, j.Canonical := by
  intro j hj
  cases h with
  | null => cases hj
  | array elements_canonical => exact elements_canonical j hj
  | object ordered members_canonical =>
      obtain ⟨m, hm, rfl⟩ := List.mem_map.mp hj
      exact members_canonical m hm
  | boolean value =>
      obtain rfl := List.mem_singleton.mp hj
      exact .boolean value
  | integer value =>
      obtain rfl := List.mem_singleton.mp hj
      exact .integer value
  | float value =>
      obtain rfl := List.mem_singleton.mp hj
      exact .float value
  | string value =>
      obtain rfl := List.mem_singleton.mp hj
      exact .string value

variable [Regex] [Exprtk]

/-- What `make_function_key_manipulator` goes through. -/
theorem makeFunctionKeyManipulator_eq_some {allocate : String → ℕ} {pair : String × String}
    {fn : Bool} {o : BasicObject} (h : makeFunctionKeyManipulator allocate pair fn = some o) :
    ∃ fromJson fromJson' toJson elements, NlohmannJson.parse pair.1 = some fromJson ∧
      fromModifiers fn fromJson = some fromJson' ∧ NlohmannJson.parse pair.2 = some toJson ∧
      (rangeElements toJson).mapM (toElement fn) = some elements ∧
      FromEventDefinitionObject.fromJson allocate fromJson' = .ok o.from_ ∧
      elements.mapM (ToEventDefinitionObject.fromJson allocate) = .ok o.to_ := by
  obtain ⟨fromJson, hfrom, h⟩ := Option.bind_eq_some_iff.mp h
  split_ifs at h
  obtain ⟨fromJson', hmodifiers, h⟩ := Option.bind_eq_some_iff.mp h
  obtain ⟨toJson, hto, h⟩ := Option.bind_eq_some_iff.mp h
  split_ifs at h
  obtain ⟨elements, helements, h⟩ := Option.bind_eq_some_iff.mp h
  cases hconstruct : BasicObject.construct allocate fromJson' elements with
  | error e => rw [hconstruct] at h; cases h
  | ok o' =>
      rw [hconstruct] at h
      obtain rfl := Option.some.inj h
      obtain ⟨to_, hreadTo, hconstruct⟩ := JsonM.bind_eq_ok.mp hconstruct
      obtain ⟨from_, hreadFrom, rfl⟩ := JsonM.bind_pure_eq_ok.mp hconstruct
      exact ⟨fromJson, fromJson', toJson, elements, hfrom, hmodifiers, hto, helements, hreadFrom,
        hreadTo⟩

/-- The modifiers of `from`: `fn` is mandatory or none is, and all others are optional. -/
theorem fromModifiersDefinition_of_make (hparse : ParsesCanonical) {allocate : String → ℕ}
    {pair : String × String} {fn : Bool} {o : BasicObject}
    (h : makeFunctionKeyManipulator allocate pair fn = some o) :
    o.from_.fromModifiersDefinition =
      { mandatoryModifiers := if fn then {.fn} else ∅, optionalModifiers := {.any} } := by
  obtain ⟨fromJson, _, _, _, hfrom, hmodifiers, -, -, hread, -⟩ :=
    makeFunctionKeyManipulator_eq_some h
  obtain ⟨members, modifiers, rfl, hordered, hlookup, hordered', hmandatory, hoptional⟩ :=
    fromModifiers_eq_some (hparse _ _ hfrom) hmodifiers
  have hdefinition := FromEventDefinitionObject.modifiers_of_fromJson hordered hlookup hread
  obtain ⟨hmandatory, hoptional⟩ :=
    FromModifiersDefinition.eq_of_fromJson hordered' hmandatory hoptional hdefinition
  have hany : ({.any} : Finset Modifier) = o.from_.fromModifiersDefinition.optionalModifiers :=
    Except.ok.inj hoptional
  have hfn : (if fn then {.fn} else ∅ : Finset Modifier) =
      o.from_.fromModifiersDefinition.mandatoryModifiers := by
    cases fn <;> exact Except.ok.inj hmandatory
  rw [hany, hfn]

/-- One element: exactly the events that need `fn` are sent with it.  They are read with `fn` behind
their modifiers, and the others as they are. -/
def ReadsElement (allocate : String → ℕ) (fn : Bool) (j : Json) (to_ : ToEventDefinitionObject) :
    Prop :=
  (NeedsFn fn j → .fn ∈ to_.modifiers ∧
    ∃ j', modifyMember "modifiers" pushBackFn j = some j' ∧
      ToEventDefinitionObject.fromJson allocate j' = .ok to_) ∧
    (¬NeedsFn fn j → ToEventDefinitionObject.fromJson allocate j = .ok to_)

/-- What is read from the changed element is what the element says, with fn where it needs it. -/
theorem readsElement_of_toElement {allocate : String → ℕ} {fn : Bool} {j j' : Json}
    {to_ : ToEventDefinitionObject} (hcanonical : j.Canonical) (h : toElement fn j = some j')
    (hread : ToEventDefinitionObject.fromJson allocate j' = .ok to_) :
    ReadsElement allocate fn j to_ := by
  rcases toElement_eq_some h with ⟨hneeds, happend⟩ | ⟨hneeds, rfl⟩
  · refine ⟨fun _ => ⟨?_, j', happend, hread⟩, absurd hneeds⟩
    obtain ⟨members, rfl, hordered, ⟨elements, hlookup⟩ | ⟨modifiers, hlookup⟩⟩ :=
      lookup_modifyMember_pushBackFn hcanonical happend
    · exact fn_mem_of_makeModifiers
        (ToEventDefinitionObject.modifiers_of_fromJson hordered hlookup hread)
    -- An object is left as it is, but it is no list of modifiers.
    · cases ToEventDefinitionObject.modifiers_of_fromJson hordered hlookup hread
  · exact ⟨fun h => absurd h hneeds, fun _ => hread⟩

/-- **What `make_function_key_manipulator` makes**: `fn` is mandatory or no modifier is, and exactly
the events that need `fn` are sent with it; the others are read as they are. -/
theorem makeFunctionKeyManipulator_spec (hparse : ParsesCanonical) {allocate : String → ℕ}
    {pair : String × String} {fn : Bool} {o : BasicObject}
    (h : makeFunctionKeyManipulator allocate pair fn = some o) :
    o.from_.fromModifiersDefinition =
        { mandatoryModifiers := if fn then {.fn} else ∅, optionalModifiers := {.any} } ∧
      ∃ toJson, NlohmannJson.parse pair.2 = some toJson ∧
        List.Forall₂ (ReadsElement allocate fn) (rangeElements toJson) o.to_ := by
  refine ⟨fromModifiersDefinition_of_make hparse h, ?_⟩
  obtain ⟨_, _, toJson, elements, -, -, hto, helements, -, hread⟩ :=
    makeFunctionKeyManipulator_eq_some h
  refine ⟨toJson, hto, ?_⟩
  have hcanonical := canonical_rangeElements (hparse _ _ hto)
  replace hread := mapM_eq_ok_iff.mp hread
  generalize rangeElements toJson = js at helements hcanonical
  generalize o.to_ = to_ at hread
  induction js generalizing elements to_ with
  | nil =>
      obtain rfl : [] = elements := Option.some.inj helements
      cases hread
      exact .nil
  | cons j js ih =>
      rw [List.mapM_cons] at helements
      obtain ⟨j', hj', helements⟩ := Option.bind_eq_some_iff.mp helements
      obtain ⟨rest, hrest, hcons⟩ := Option.bind_eq_some_iff.mp helements
      obtain rfl := Option.some.inj hcons
      cases hread with
      | cons hhead htail =>
          exact .cons (readsElement_of_toElement (hcanonical j List.mem_cons_self) hj' hhead)
            (ih rest hrest (fun j hj => hcanonical j (List.mem_cons_of_mem _ hj)) _ htail)

end

/-! ### What the profile says -/

section

variable [NlohmannJson] [Regex] [Exprtk] [NaturalSort] [SharedPointers] [RegexSearch]

/-- A pair that can be run: if it makes a manipulator, that maps from a single event, so that a
press does not wait for others, and its events can be posted. -/
def Runs (allocate : String → ℕ) (pair : String × String) : Prop :=
  ∀ fn o, makeFunctionKeyManipulator allocate pair fn = some o →
    ∃ d, o.definition = some d ∧ ∃ e, d.from_.eventDefinitions = [e]

/-- Every pair of the profile can be run. -/
def AllRun (allocate : String → ℕ) (profile : Profile) : Prop :=
  (∀ device ∈ profile.devices, ∀ pair ∈ device.fnFunctionKeys.pairs, Runs allocate pair) ∧
    ∀ pair ∈ profile.fnFunctionKeys.pairs, Runs allocate pair

omit [Regex] in
/-- The conditions of all pairs. -/
def pairConditions : List Condition :=
  [(ConditionDefinition.eventChanged .if_ false).condition,
    (ConditionDefinition.device .deviceUnless [{ isTouchBar := some true }]).condition]

omit [NlohmannJson] [Regex] [Exprtk] [NaturalSort] [RegexSearch] in
/-- The pairs may take the entry: it has not been manipulated, and it is not from a Touch Bar. -/
def admits (front : Entry) (o : Output) : Bool :=
  front.state ≠ .manipulated &&
    match o.queue.manipulatorEnvironment.findDeviceProperties front.deviceId with
    | some p => !p.isBuiltInTouchBar
    | none => true

/-- What the pairs that are for the device of the entry make, in their order. -/
def candidates (allocate : String → ℕ) (profile : Profile)
    (properties : SystemPreferencesProperties) (front : Entry) (o : Output) :
    List BasicDefinition :=
  ((profile.devices.filter (appliesTo front o)).flatMap (·.fnFunctionKeys.pairs) ++
    profile.fnFunctionKeys.pairs).filterMap
      (pairDefinition allocate properties.useFkeysAsStandardFunctionKeys)

omit [NlohmannJson] [Regex] [NaturalSort] [SharedPointers] [RegexSearch] in
/-- The definition maps the entry. -/
def maps (front : Entry) (o : Output) (d : BasicDefinition) : Bool :=
  (ManipulatorDefinition.basic d).targets front o.queue.modifierFlagManager

/-- What there is for an entry. -/
def selected (allocate : String → ℕ) (profile : Profile)
    (properties : SystemPreferencesProperties) (front : Entry) (o : Output) :
    Option BasicDefinition :=
  ((standardDefinitions allocate properties.useFkeysAsStandardFunctionKeys).find?
      (maps front o)).or
    ((if admits front o then
        (candidates allocate profile properties front o).find? (maps front o)
      else none).or
      ((fixedDefinitions allocate).find? (maps front o)))

omit [Regex] [Exprtk] in
/-- The conditions of a pair of a device are the common ones and that of the device. -/
theorem withConditions_device (device : Device) (d : BasicDefinition) :
    withConditions [makeEventChangedIfCondition false, makeDeviceUnlessTouchBarCondition,
        makeDeviceIfCondition device.identifiers] d =
      some { d with conditions := pairConditions ++ [deviceCondition device] } := by
  rw [makeDeviceIfCondition_eq]
  rfl

omit [Regex] in
/-- The common conditions admit what `admits` does. -/
theorem allFulfilled_pairConditions (front : Entry) (o : Output) :
    allFulfilled pairConditions front o = admits front o := by
  have htouchBar (p : Devices.DeviceProperties) (c : CoreConfiguration) :
      DeviceConditionDefinition.fulfilled { isTouchBar := some true } p c =
        p.isBuiltInTouchBar := by
    simp [DeviceConditionDefinition.fulfilled, DeviceConditionDefinition.fieldFulfilled]
  show (decide (front.state ≠ .manipulated) &&
    (deviceIsFulfilled .deviceUnless _ front o.queue.manipulatorEnvironment && true)) = _
  unfold deviceIsFulfilled DeviceConditionType.candidates admits
  cases o.queue.manipulatorEnvironment.findDeviceProperties front.deviceId with
  | none => rfl
  | some p =>
      simp only [Option.toList_some, List.find?_cons, List.find?_nil, List.any_cons, List.any_nil,
        Bool.or_false, List.isEmpty_cons, Bool.false_eq_true, if_false, htouchBar]
      cases p.isBuiltInTouchBar <;> simp [DeviceConditionType.found]

/-- The manipulators of a device are those of its pairs, in their order. -/
theorem deviceDefinitions_eq (allocate : String → ℕ) (fn : Bool) (device : Device) :
    deviceDefinitions allocate fn device =
      (device.fnFunctionKeys.pairs.filterMap (pairDefinition allocate fn)).map fun d =>
        { d with conditions := pairConditions ++ [deviceCondition device] } := by
  rw [deviceDefinitions, List.map_filterMap]
  refine List.filterMap_congr fun pair _ => ?_
  cases pairDefinition allocate fn pair with
  | none => rfl
  | some d => exact withConditions_device device d

/-- The pairs of a device take an entry if they may and are for its device. -/
theorem find?_deviceDefinitions (allocate : String → ℕ) (fn : Bool) (device : Device)
    (front : Entry) (o : Output) :
    (((deviceDefinitions allocate fn device).map ManipulatorDefinition.basic).find?
        (·.takes front o)).map ManipulatorDefinition.unconditional =
      if admits front o && appliesTo front o device then
        ((device.fnFunctionKeys.pairs.filterMap (pairDefinition allocate fn)).find?
          (maps front o)).map (ManipulatorDefinition.unconditional ∘ .basic)
      else none := by
  have hall : allFulfilled (pairConditions ++ [deviceCondition device]) front o =
      (admits front o && appliesTo front o device) := by
    rw [← allFulfilled_pairConditions, ← isFulfilled_deviceCondition, allFulfilled, allFulfilled,
      List.all_append, List.all_cons, List.all_nil, Bool.and_true]
  rw [deviceDefinitions_eq, List.map_map, ← hall]
  exact find?_takes_of_conditions _ _ front o

/-- The pairs of all devices. -/
theorem find?_flatMap_deviceDefinitions (allocate : String → ℕ) (fn : Bool)
    (devices : List Device) (front : Entry) (o : Output) :
    (((devices.flatMap (deviceDefinitions allocate fn)).map ManipulatorDefinition.basic).find?
        (·.takes front o)).map ManipulatorDefinition.unconditional =
      if admits front o then
        ((((devices.filter (appliesTo front o)).flatMap (·.fnFunctionKeys.pairs)).filterMap
          (pairDefinition allocate fn)).find? (maps front o)).map
            (ManipulatorDefinition.unconditional ∘ .basic)
      else none := by
  induction devices with
  | nil => exact (ite_self none).symm
  | cons device devices ih =>
      rw [List.flatMap_cons, List.map_append, List.find?_append, Option.map_or,
        find?_deviceDefinitions, ih, List.filter_cons]
      cases admits front o with
      | false => rfl
      | true =>
          simp only [Bool.true_and, if_true]
          cases appliesTo front o device with
          | true =>
              simp only [if_true, List.flatMap_cons, List.filterMap_append, List.find?_append,
                Option.map_or]
          | false => rfl

omit [NlohmannJson] [Regex] [NaturalSort] [SharedPointers] [RegexSearch] in
/-- Manipulators without conditions take what they map. -/
theorem find?_of_conditions_nil {ds : List BasicDefinition} (h : ∀ d ∈ ds, d.conditions = [])
    (front : Entry) (o : Output) :
    ((ds.map ManipulatorDefinition.basic).find? (·.takes front o)).map
        ManipulatorDefinition.unconditional =
      (ds.find? (maps front o)).map (ManipulatorDefinition.unconditional ∘ .basic) := by
  have hsame : ds.map ManipulatorDefinition.basic =
      ds.map fun d => ManipulatorDefinition.basic { d with conditions := [] } :=
    List.map_congr_left fun d hd => by rw [← h d hd]
  rw [hsame]
  exact find?_takes_of_conditions [] ds front o

omit [Regex] in
/-- A definition built in has no condition of its own. -/
theorem conditions_fixedDefinition {o : JsonM BasicObject} {d : BasicDefinition}
    (h : fixedDefinition o = some d) : d.conditions = [] := by
  obtain ⟨o', -, hd⟩ := Option.bind_eq_some_iff.mp h
  exact (o'.definition_simple hd).2.2

/-- The standard function keys have no conditions. -/
theorem conditions_standardDefinitions (allocate : String → ℕ) (fn : Bool) :
    ∀ d ∈ standardDefinitions allocate fn, d.conditions = [] := by
  intro d hd
  unfold standardDefinitions at hd
  split_ifs at hd
  · cases hd
  · obtain ⟨keyCode, -, hd⟩ := List.mem_filterMap.mp hd
    exact conditions_fixedDefinition hd

theorem conditions_fixedDefinitions (allocate : String → ℕ) :
    ∀ d ∈ fixedDefinitions allocate, d.conditions = [] := by
  intro d hd
  rcases List.mem_append.mp hd with hd | hd
  · exact conditions_fixedDefinition (Option.mem_toList.mp hd)
  · obtain ⟨application, -, hd⟩ := List.mem_filterMap.mp hd
    exact conditions_fixedDefinition hd

/-- **The manipulators of a profile take** what there is for an entry. -/
theorem find?_definitions (allocate : String → ℕ) (profile : Profile)
    (properties : SystemPreferencesProperties) (front : Entry) (o : Output) :
    (((definitions allocate profile properties).map ManipulatorDefinition.basic).find?
        (·.takes front o)).map ManipulatorDefinition.unconditional =
      (selected allocate profile properties front o).map
        (ManipulatorDefinition.unconditional ∘ .basic) := by
  unfold definitions selected candidates
  dsimp only
  generalize properties.useFkeysAsStandardFunctionKeys = fn
  have hprofile : (profile.fnFunctionKeys.pairs.filterMap fun pair =>
      (pairDefinition allocate fn pair).bind
        (withConditions [makeEventChangedIfCondition false, makeDeviceUnlessTouchBarCondition])) =
      (profile.fnFunctionKeys.pairs.filterMap (pairDefinition allocate fn)).map fun d =>
        { d with conditions := pairConditions } := by
    rw [List.map_filterMap]
    refine List.filterMap_congr fun pair _ => ?_
    cases pairDefinition allocate fn pair <;> rfl
  have hpairs : (((profile.fnFunctionKeys.pairs.filterMap (pairDefinition allocate fn)).map
      fun d : BasicDefinition => ManipulatorDefinition.basic
        { d with conditions := pairConditions }).find? (·.takes front o)).map
          ManipulatorDefinition.unconditional =
      if admits front o then
        ((profile.fnFunctionKeys.pairs.filterMap (pairDefinition allocate fn)).find?
          (maps front o)).map (ManipulatorDefinition.unconditional ∘ .basic)
      else none := by
    rw [← allFulfilled_pairConditions]
    exact find?_takes_of_conditions _ _ front o
  rw [hprofile, List.map_append, List.map_append, List.map_append, List.map_map,
    List.find?_append, List.find?_append, List.find?_append, Option.map_or, Option.map_or,
    Option.map_or, find?_of_conditions_nil (conditions_standardDefinitions allocate fn),
    find?_of_conditions_nil (conditions_fixedDefinitions allocate),
    find?_flatMap_deviceDefinitions, Option.or_assoc, Option.or_assoc, Option.map_or,
    Option.map_or]
  congr 1
  refine Eq.trans (congrArg (Option.or _) (congrArg (Option.or · _) hpairs)) ?_
  cases admits front o with
  | true =>
      simp only [if_true, List.filterMap_append, List.find?_append, Option.map_or,
        Option.or_assoc]
  | false => rfl

/-! ### The fixed manipulators -/

/-- `f1` to `f12`. -/
def functionKeyEvents : List MomentarySwitchEvent :=
  (List.range 12).map fun i => ⟨⟨UsagePage.keyboardOrKeypad, 0x3a + i⟩⟩

/-- `fn` with a function key, which sends that function key. -/
def standardDefinition (e : MomentarySwitchEvent) : BasicDefinition where
  from_ := {
    eventDefinitions := [.momentarySwitchEvent e]
    fromModifiersDefinition := { mandatoryModifiers := {.fn}, optionalModifiers := {.any} } }
  to_ := [{ eventDefinition := .momentarySwitchEvent e, modifiers := {.fn} }]

/-- If F1, F2, etc. are not standard function keys, there is a manipulator for each of them. -/
theorem standardDefinitions_eq (allocate : String → ℕ) :
    standardDefinitions allocate false = functionKeyEvents.map standardDefinition := rfl

/-- The keys which macOS will ignore. -/
def ignoredEvents : List MomentarySwitchEvent :=
  [0x0040, 0x0183, 0x0184, 0x0185, 0x0186, 0x0188, 0x018a, 0x0192, 0x0194, 0x0196, 0x01a9].map
    fun usage => ⟨⟨UsagePage.consumer, usage⟩⟩

/-- They are all on the consumer page. -/
theorem consumer_fixedDefinitions (allocate : String → ℕ) :
    ∀ d ∈ fixedDefinitions allocate, ∃ e : MomentarySwitchEvent,
      d.from_.eventDefinitions = [.momentarySwitchEvent e] ∧
        e.usagePair.usagePage = UsagePage.consumer := by
  have hevents : (fixedDefinitions allocate).map (·.from_.eventDefinitions) =
      ignoredEvents.map fun e => [.momentarySwitchEvent e] := rfl
  intro d hd
  have hd' := List.mem_map_of_mem (f := fun d : BasicDefinition => d.from_.eventDefinitions) hd
  rw [hevents] at hd'
  obtain ⟨e, he, hfrom⟩ := List.mem_map.mp hd'
  obtain ⟨usage, -, rfl⟩ := List.mem_map.mp he
  exact ⟨_, hfrom.symm, rfl⟩

/-! ### What is taken -/

omit [Regex] in
/-- The from-modifiers are those that were read. -/
theorem from_of_definition {o : BasicObject} {d : BasicDefinition} (h : o.definition = some d) :
    d.from_.fromModifiersDefinition = o.from_.fromModifiersDefinition := by
  obtain ⟨from_, hfrom, h⟩ := Option.bind_eq_some_iff.mp h
  obtain ⟨to_, -, h⟩ := Option.bind_eq_some_iff.mp h
  obtain rfl := Option.some.inj h
  obtain ⟨eventDefinitions, -, hfrom⟩ := Option.bind_eq_some_iff.mp hfrom
  obtain ⟨simultaneousOptions, -, hfrom⟩ := Option.bind_eq_some_iff.mp hfrom
  obtain rfl := Option.some.inj hfrom
  rfl

omit [NlohmannJson] [Regex] [Exprtk] [NaturalSort] [SharedPointers] [RegexSearch] in
/-- A rule with the mandatory modifier `fn` tests whether `fn` is pressed. -/
theorem isSome_testModifiers_fn (manager : ModifierFlagManager) :
    (FromModifiersDefinition.testModifiers
        { mandatoryModifiers := {.fn}, optionalModifiers := {.any} }
      manager).isSome = manager.isPressed .fn := by
  have hnone := @FromModifiersDefinition.testModifiers_eq_none_iff
    { mandatoryModifiers := {.fn}, optionalModifiers := {.any} } manager (by decide)
  have hpressed : FromModifiersDefinition.Pressed manager .fn ↔ manager.isPressed .fn = true := by
    simp [FromModifiersDefinition.Pressed, Modifier.getModifierFlags]
  rw [Bool.eq_iff_iff, ← hpressed, ← not_iff_not, Bool.not_eq_true, Option.isSome_eq_false_iff,
    Option.isNone_iff_eq_none, hnone]
  simp

/-- If F1, F2, etc. are standard function keys, a pair asks for `fn`, so that it maps nothing while
`fn` is not pressed. -/
theorem maps_pairDefinition (hparse : ParsesCanonical) {allocate : String → ℕ}
    {pair : String × String} {d : BasicDefinition} (h : pairDefinition allocate true pair = some d)
    {front : Entry} {o : Output} (hfn : o.queue.modifierFlagManager.isPressed .fn = false) :
    maps front o d = false := by
  obtain ⟨object, hobject, hd⟩ := Option.bind_eq_some_iff.mp h
  have hmodifiers := fromModifiersDefinition_of_make hparse hobject
  rw [maps, ManipulatorDefinition.targets, from_of_definition hd, hmodifiers, if_pos rfl,
    isSome_testModifiers_fn, hfn, Bool.and_false]

/-- Without `fn` nothing is there for an ordinary key, if F1, F2, etc. are standard function keys.
-/
theorem selected_eq_none (hparse : ParsesCanonical) {allocate : String → ℕ} {profile : Profile}
    {properties : SystemPreferencesProperties}
    (hkeys : properties.useFkeysAsStandardFunctionKeys = true) {front : Entry}
    {e : MomentarySwitchEvent} (hevent : front.event = .momentarySwitchEvent e)
    (hpage : e.usagePair.usagePage ≠ UsagePage.consumer) {o : Output}
    (hfn : o.queue.modifierFlagManager.isPressed .fn = false) :
    selected allocate profile properties front o = none := by
  have hpairs : (candidates allocate profile properties front o).find? (maps front o) = none := by
    rw [List.find?_eq_none]
    intro d hd
    obtain ⟨pair, -, hpair⟩ := List.mem_filterMap.mp hd
    rw [hkeys] at hpair
    rw [maps_pairDefinition hparse hpair hfn]
    exact Bool.false_ne_true
  have hfixed : (fixedDefinitions allocate).find? (maps front o) = none := by
    rw [List.find?_eq_none]
    intro d hd hmaps
    obtain ⟨e', he', hconsumer⟩ := consumer_fixedDefinitions allocate d hd
    have htest : d.from_.testEvent front.event = true := by
      simp only [maps, ManipulatorDefinition.targets, Bool.and_eq_true] at hmaps
      exact hmaps.1.2
    rw [FromEventDefinition.testEvent, he', hevent] at htest
    obtain rfl : e = e' := by simpa [EventDefinition.testEvent] using htest
    exact hpage hconsumer
  rw [selected, standardDefinitions, if_pos hkeys, hpairs, hfixed, ite_self]
  rfl

/-- `fn` with a function key is that function key, if F1, F2, etc. are not standard function keys.
-/
theorem selected_eq_standardDefinition {allocate : String → ℕ} {profile : Profile}
    {properties : SystemPreferencesProperties}
    (hkeys : properties.useFkeysAsStandardFunctionKeys = false) {front : Entry}
    {e : MomentarySwitchEvent} (hevent : front.event = .momentarySwitchEvent e)
    (he : e ∈ functionKeyEvents) (hdown : front.eventType = .keyDown) {o : Output}
    (hfn : o.queue.modifierFlagManager.isPressed .fn = true) :
    selected allocate profile properties front o = some (standardDefinition e) := by
  have hmaps : maps front o ∘ standardDefinition = fun e' => decide (e = e') := by
    funext e'
    show maps front o (standardDefinition e') = _
    have hmodifiers := isSome_testModifiers_fn o.queue.modifierFlagManager
    rw [hfn] at hmodifiers
    rw [maps, ManipulatorDefinition.targets, standardDefinition, hmodifiers, hdown, hevent]
    simp [FromEventDefinition.testEvent, EventDefinition.testEvent]
  have hfind : functionKeyEvents.find? (fun e' => decide (e = e')) = some e := by
    cases hfind : functionKeyEvents.find? fun e' => decide (e = e') with
    | none => exact absurd (decide_eq_true rfl) (List.find?_eq_none.mp hfind e he)
    | some e' =>
        obtain rfl : e = e' := by simpa using List.find?_some hfind
        rfl
  rw [selected, hkeys, standardDefinitions_eq, List.find?_map, hmaps, hfind]
  rfl

omit [Regex] in
/-- What the common conditions ask for is not changed by the manipulators. -/
theorem steady_pairConditions : ∀ c ∈ pairConditions, c.Steady := by
  intro c hc
  rcases List.mem_cons.mp hc with rfl | hc
  · exact fun _ _ _ _ _ => rfl
  · obtain rfl := List.mem_singleton.mp hc
    exact fun _ _ _ _ _ => rfl

/-- A pair that can be run makes a plain manipulator. -/
theorem plain_of_runs {allocate : String → ℕ} {pair : String × String} {fn : Bool}
    {d : BasicDefinition} (hruns : Runs allocate pair)
    (h : pairDefinition allocate fn pair = some d)
    {conditions : List Condition} (hsteady : ∀ c ∈ conditions, c.Steady) :
    BasicDefinition.Plain { d with conditions := conditions } := by
  obtain ⟨o, ho, hd⟩ := Option.bind_eq_some_iff.mp h
  obtain ⟨d', hd', hsingle⟩ := hruns fn o ho
  obtain rfl : d' = d := Option.some.inj (hd'.symm.trans hd)
  exact o.plain_definition hd hsingle hsteady

omit [Regex] in
theorem plain_of_fixed {o : JsonM BasicObject} {d : BasicDefinition}
    (h : fixedDefinition o = some d) (hsingle : ∃ e, d.from_.eventDefinitions = [e]) :
    d.Plain := by
  obtain ⟨o', -, hd⟩ := Option.bind_eq_some_iff.mp h
  have hsteady : ∀ c ∈ d.conditions, c.Steady := by
    rw [conditions_fixedDefinition h]
    exact nofun
  exact o'.plain_definition hd hsingle hsteady

/-- Everything that `update` makes is plain. -/
theorem plain_definitions {allocate : String → ℕ} {profile : Profile}
    {properties : SystemPreferencesProperties} (hruns : AllRun allocate profile) :
    ∀ d ∈ definitions allocate profile properties, d.Plain := by
  intro d hd
  unfold definitions at hd
  simp only [List.mem_append] at hd
  rcases hd with ((hd | hd) | hd) | hd
  · unfold standardDefinitions at hd
    split_ifs at hd with hkeys
    · cases hd
    · have hd' : d ∈ standardDefinitions allocate false := by
        unfold standardDefinitions
        rwa [if_neg Bool.false_ne_true]
      rw [standardDefinitions_eq] at hd'
      obtain ⟨e, -, rfl⟩ := List.mem_map.mp hd'
      obtain ⟨keyCode, -, hmake⟩ := List.mem_filterMap.mp hd
      exact plain_of_fixed hmake ⟨_, rfl⟩
  · obtain ⟨device, hdevice, hd⟩ := List.mem_flatMap.mp hd
    rw [deviceDefinitions_eq] at hd
    obtain ⟨d', hd', rfl⟩ := List.mem_map.mp hd
    obtain ⟨pair, hpair, hmake⟩ := List.mem_filterMap.mp hd'
    refine plain_of_runs (hruns.1 device hdevice pair hpair) hmake fun c hc => ?_
    rcases List.mem_append.mp hc with hc | hc
    · exact steady_pairConditions c hc
    · obtain rfl := List.mem_singleton.mp hc
      exact steady_deviceCondition device
  · obtain ⟨pair, hpair, hmake⟩ := List.mem_filterMap.mp hd
    obtain ⟨d', hd', hconditions⟩ := Option.bind_eq_some_iff.mp hmake
    obtain rfl := Option.some.inj hconditions
    exact plain_of_runs (hruns.2 pair hpair) hd' steady_pairConditions
  · obtain ⟨e, he, -⟩ := consumer_fixedDefinitions allocate d hd
    rcases List.mem_append.mp hd with hd | hd
    · exact plain_of_fixed (Option.mem_toList.mp hd) ⟨_, he⟩
    · obtain ⟨application, -, hmake⟩ := List.mem_filterMap.mp hd
      exact plain_of_fixed hmake ⟨_, he⟩

/-! ### Runs -/

variable [SystemClock] [MachTimebase]

/-- What `update` is called with. -/
abbrev Settings := Profile × SystemPreferencesProperties

/-- The connection after a run from an empty manager. -/
abbrev run (allocate : String → ℕ) (output : Output) (is : List (LoadInput Settings)) :
    KindsConnection :=
  LoadInput.run (fun s : Settings => (definitions allocate s.1 s.2).map .basic) output is

/-- What is selected for an entry is what becomes of it, after any run. -/
theorem treats_of_selected {allocate : String → ℕ} {output : Output}
    {is : List (LoadInput Settings)}
    (hruns : ∀ settings, .update settings ∈ is → AllRun allocate settings.1)
    {profile : Profile} {properties : SystemPreferencesProperties}
    (hlast : LoadInput.last none is = some (profile, properties)) {front : Entry}
    {rest : List Entry} (hinput : (run allocate output is).input.events = front :: rest)
    (valid : front.validity = .valid) (hup : front.eventType ≠ .keyUp)
    (hevent : front.event.getMomentarySwitchEvent.isSome)
    (hfree : ∀ m ∈ (run allocate output is).manipulators, m.alreadyManipulated front = false)
    {taker : Option BasicDefinition}
    (htaker : selected allocate profile properties front (run allocate output is).output = taker)
    (now : AbsoluteTime) (reorder : Bool) :
    let c := run allocate output is
    ∃ front' o',
      Treats (taker.map .basic) front c.output front' o' ∧
        (c.manipulate now reorder).input = c.input.eraseFrontEvent ∧
        (c.manipulate now reorder).output = Connection.copyFront front' reorder o' := by
  have hplain : ∀ settings : Settings, .update settings ∈ is →
      ∀ d ∈ (definitions allocate settings.1 settings.2).map ManipulatorDefinition.basic,
        d.Plain := by
    intro settings hmem d hd
    obtain ⟨d', hd', rfl⟩ := List.mem_map.mp hd
    exact plain_definitions (hruns settings hmem) d' hd'
  obtain ⟨front', o', htreats, hmanipulate⟩ :=
    LoadInput.treats_run hplain hlast hinput valid hup (.inl hevent) hfree now reorder
  refine ⟨front', o', Treats.of_map_unconditional ?_ htreats, hmanipulate⟩
  rw [find?_definitions, Option.map_map, htaker]

/-- **The settings of the last update decide** what becomes of a new press, after any run. -/
theorem treats_selected_of_run {allocate : String → ℕ} {output : Output}
    {is : List (LoadInput Settings)}
    (hruns : ∀ settings, .update settings ∈ is → AllRun allocate settings.1)
    {profile : Profile} {properties : SystemPreferencesProperties}
    (hlast : LoadInput.last none is = some (profile, properties)) {front : Entry}
    {rest : List Entry} (hinput : (run allocate output is).input.events = front :: rest)
    (valid : front.validity = .valid) (hup : front.eventType ≠ .keyUp)
    (hevent : front.event.getMomentarySwitchEvent.isSome)
    (hfree : ∀ m ∈ (run allocate output is).manipulators, m.alreadyManipulated front = false)
    (now : AbsoluteTime) (reorder : Bool) :
    let c := run allocate output is
    ∃ front' o',
      Treats ((selected allocate profile properties front c.output).map .basic) front c.output
          front' o' ∧
        (c.manipulate now reorder).input = c.input.eraseFrontEvent ∧
        (c.manipulate now reorder).output = Connection.copyFront front' reorder o' :=
  treats_of_selected hruns hlast hinput valid hup hevent hfree rfl now reorder

/-- **Without `fn` a key passes** unchanged, if F1, F2, etc. are standard function keys and it is
not on the consumer page: no pair of the profile maps it. -/
theorem passes_of_run (hparse : ParsesCanonical) {allocate : String → ℕ} {output : Output}
    {is : List (LoadInput Settings)}
    (hruns : ∀ settings, .update settings ∈ is → AllRun allocate settings.1)
    {profile : Profile} {properties : SystemPreferencesProperties}
    (hlast : LoadInput.last none is = some (profile, properties))
    (hkeys : properties.useFkeysAsStandardFunctionKeys = true) {front : Entry}
    {rest : List Entry} (hinput : (run allocate output is).input.events = front :: rest)
    (valid : front.validity = .valid) (hup : front.eventType ≠ .keyUp) {e : MomentarySwitchEvent}
    (hevent : front.event = .momentarySwitchEvent e)
    (hpage : e.usagePair.usagePage ≠ UsagePage.consumer)
    (hfree : ∀ m ∈ (run allocate output is).manipulators, m.alreadyManipulated front = false)
    (hfn : (run allocate output is).output.queue.modifierFlagManager.isPressed .fn = false)
    (now : AbsoluteTime) (reorder : Bool) :
    let c := run allocate output is
    (c.manipulate now reorder).input = c.input.eraseFrontEvent ∧
      ∃ o', c.output.Refreshed o' ∧
        (c.manipulate now reorder).output = Connection.copyFront front reorder o' := by
  have hmomentary : front.event.getMomentarySwitchEvent.isSome := by
    rw [hevent]
    rfl
  obtain ⟨_, o', ⟨rfl, hrefreshed⟩, hinput', houtput⟩ :=
    treats_of_selected hruns hlast hinput valid hup hmomentary hfree
      (selected_eq_none hparse hkeys hevent hpage hfn) now reorder
  exact ⟨hinput', o', hrefreshed, houtput⟩

/-- **`fn` with a function key is that function key**, if F1, F2, etc. are not standard function
keys: it comes before the pairs of the profile. -/
theorem standard_of_run {allocate : String → ℕ} {output : Output}
    {is : List (LoadInput Settings)}
    (hruns : ∀ settings, .update settings ∈ is → AllRun allocate settings.1)
    {profile : Profile} {properties : SystemPreferencesProperties}
    (hlast : LoadInput.last none is = some (profile, properties))
    (hkeys : properties.useFkeysAsStandardFunctionKeys = false) {front : Entry}
    {rest : List Entry} (hinput : (run allocate output is).input.events = front :: rest)
    (valid : front.validity = .valid) (hdown : front.eventType = .keyDown)
    {e : MomentarySwitchEvent} (hevent : front.event = .momentarySwitchEvent e)
    (he : e ∈ functionKeyEvents)
    (hfree : ∀ m ∈ (run allocate output is).manipulators, m.alreadyManipulated front = false)
    (hfn : (run allocate output is).output.queue.modifierFlagManager.isPressed .fn = true)
    (now : AbsoluteTime) (reorder : Bool) :
    let c := run allocate output is
    ∃ front' o',
      Treats (some (.basic (standardDefinition e))) front c.output front' o' ∧
        (c.manipulate now reorder).input = c.input.eraseFrontEvent ∧
        (c.manipulate now reorder).output = Connection.copyFront front' reorder o' := by
  have hmomentary : front.event.getMomentarySwitchEvent.isSome := by
    rw [hevent]
    rfl
  have hup : front.eventType ≠ .keyUp := by
    rw [hdown]
    decide
  exact treats_of_selected hruns hlast hinput valid hup hmomentary hfree
    (selected_eq_standardDefinition hkeys hevent he hdown hfn) now reorder

end

/-! ### Runs of a profile -/

section

/-- The texts of a pair that maps `f1` to `volume_increment`. -/
def texts : List (String × Json) := [
  ("from", .object [("key_code", .string "f1")]),
  ("to", .array [.object [("consumer_key_code", .string "volume_increment")]])]

/-- The texts of the example are canonical. -/
theorem canonical_texts : ∀ entry ∈ texts, entry.2.Canonical := by
  have hmember (key value : String) : (Json.object [(key, .string value)]).Canonical := by
    refine .object (List.pairwise_singleton _ _) fun m hm => ?_
    obtain rfl := List.mem_singleton.mp hm
    exact .string value
  intro entry hentry
  rcases List.mem_cons.mp hentry with rfl | hentry
  · exact hmember "key_code" "f1"
  · obtain rfl := List.mem_singleton.mp hentry
    refine .array fun e he => ?_
    obtain rfl := List.mem_singleton.mp he
    exact hmember "consumer_key_code" "volume_increment"

local instance : NlohmannJson := NlohmannJson.ofTable texts

local instance : Regex := ⟨fun _ => none⟩

local instance : Exprtk := Exprtk.singleVariable

local instance : NaturalSort := .unordered

local instance : SharedPointers := ⟨fun _ => .unnamed, fun _ => .load .loose none⟩

local instance : RegexSearch := ⟨fun _ _ => false⟩

local instance : SystemClock := ⟨fun _ => 0⟩

local instance : MachTimebase := ⟨1, 1⟩

/-- `makeFunctionKeyManipulator_spec` for `f1`. -/
theorem makeFunctionKeyManipulator_spec_volumeIncrement :
    ∃ o, makeFunctionKeyManipulator (fun _ => 0) ("from", "to") true = some o ∧
      o.from_.fromModifiersDefinition =
          { mandatoryModifiers := if true then {.fn} else ∅, optionalModifiers := {.any} } ∧
        ∃ toJson, NlohmannJson.parse "to" = some toJson ∧
          List.Forall₂ (ReadsElement (fun _ => 0) true) (rangeElements toJson) o.to_ := by
  obtain ⟨o, ho⟩ : ∃ o, makeFunctionKeyManipulator (fun _ => 0) ("from", "to") true = some o :=
    ⟨_, rfl⟩
  exact ⟨o, ho, makeFunctionKeyManipulator_spec (parsesCanonical_ofTable canonical_texts) ho⟩

/-- A profile with that pair. -/
def profile : Profile := { Profile.bare with fnFunctionKeys := { pairs := [("from", "to")] } }

/-- `f1` is pressed. -/
def f1Down : Entry where
  deviceId := 1
  eventTimeStamp := { timeStamp := 0 }
  event := .momentarySwitchEvent ⟨⟨UsagePage.keyboardOrKeypad, 0x3a⟩⟩
  eventType := .keyDown
  originalEvent := .momentarySwitchEvent ⟨⟨UsagePage.keyboardOrKeypad, 0x3a⟩⟩
  state := .original

/-- `f1` is pressed after the profile has been loaded. -/
def f1Press (useFkeysAsStandardFunctionKeys : Bool) : List (LoadInput Settings) :=
  [.update (profile, ⟨useFkeysAsStandardFunctionKeys, true⟩), .arrive f1Down]

/-- An output queue while `fn` is pressed. -/
def fnPressed : Output :=
  let fn : ActiveModifierFlag := ⟨.increase, .fn, 1, nofun⟩
  ⟨{ modifierFlagManager := ⟨[fn]⟩ }, .initial⟩

/-- The pair of the example can be run. -/
theorem runs_texts : Runs (fun _ => 0) ("from", "to") := by
  have hmake (fn : Bool) : ∃ o d, makeFunctionKeyManipulator (fun _ => 0) ("from", "to") fn =
      some o ∧ o.definition = some d ∧ ∃ e, d.from_.eventDefinitions = [e] := by
    cases fn
    · exact ⟨_, _, rfl, rfl, _, rfl⟩
    · exact ⟨_, _, rfl, rfl, _, rfl⟩
  intro fn o' ho'
  obtain ⟨o, d, ho, hd, hsingle⟩ := hmake fn
  obtain rfl := Option.some.inj (ho.symm.trans ho')
  exact ⟨d, hd, hsingle⟩

theorem allRun_f1Press (fkeys : Bool) :
    ∀ settings, LoadInput.update settings ∈ f1Press fkeys → AllRun (fun _ => 0) settings.1 := by
  intro settings hsettings
  obtain rfl : settings = (profile, ⟨fkeys, true⟩) := by simpa [f1Press] using hsettings
  exact ⟨nofun, fun pair hpair => List.mem_singleton.mp hpair ▸ runs_texts⟩

/-- No press has been taken in such a run. -/
theorem free_f1Press (output : Output) (fkeys : Bool) :
    ∀ m ∈ (run (fun _ => 0) output (f1Press fkeys)).manipulators,
      m.alreadyManipulated f1Down = false := by
  intro m hm
  have hall : ((run (fun _ => 0) output (f1Press fkeys)).manipulators.all fun m =>
      !m.alreadyManipulated f1Down) = true := by
    cases fkeys <;> rfl
  exact Bool.not_eq_true' _ ▸ List.all_eq_true.mp hall m hm

/-- `treats_selected_of_run` for `f1`. -/
theorem treats_selected_of_run_f1 :
    let c := run (fun _ => 0) ⟨{}, .initial⟩ (f1Press false)
    (selected (fun _ => 0) profile ⟨false, true⟩ f1Down c.output).isSome = true ∧
      ∃ front' o',
        Treats ((selected (fun _ => 0) profile ⟨false, true⟩ f1Down c.output).map .basic) f1Down
            c.output front' o' ∧
          (c.manipulate 0 false).input = c.input.eraseFrontEvent ∧
          (c.manipulate 0 false).output = Connection.copyFront front' false o' :=
  ⟨rfl, treats_selected_of_run (allRun_f1Press false) rfl rfl rfl (by decide) rfl
    (free_f1Press _ false) 0 false⟩

/-- `passes_of_run` for `f1`. -/
theorem passes_of_run_f1 :
    let c := run (fun _ => 0) ⟨{}, .initial⟩ (f1Press true)
    (c.manipulate 0 false).input = c.input.eraseFrontEvent ∧
      ∃ o', c.output.Refreshed o' ∧
        (c.manipulate 0 false).output = Connection.copyFront f1Down false o' :=
  passes_of_run (parsesCanonical_ofTable canonical_texts) (allRun_f1Press true) rfl rfl rfl rfl
    (by decide) rfl (by decide) (free_f1Press _ true) rfl 0 false

/-- `standard_of_run` for `fn` with `f1`. -/
theorem standard_of_run_f1 :
    let c := run (fun _ => 0) fnPressed (f1Press false)
    ∃ front' o',
      Treats (some (.basic (standardDefinition ⟨⟨UsagePage.keyboardOrKeypad, 0x3a⟩⟩))) f1Down
          c.output front' o' ∧
        (c.manipulate 0 false).input = c.input.eraseFrontEvent ∧
        (c.manipulate 0 false).output = Connection.copyFront front' false o' :=
  standard_of_run (allRun_f1Press false) rfl rfl rfl rfl rfl rfl (by decide)
    (free_f1Press _ false) rfl 0 false

end

end FnFunctionKeysManipulatorManager

end Karabiner
