import Karabiner.CoreConfiguration.ConfigurationJsonHelper
import Karabiner.VectorUtility

/-!
# Complex modifications

`share/core_configuration/details/profile/complex_modifications*.hpp`: the rules of a profile and
the parameters of their manipulators.  A rule keeps the JSON it was made from and writes it with
its `enabled` flag.

* `Rule.construct_toJson` — a rule that was read can be read again after it is written, whatever
  the parameters are.
* `construct_toJson` — so can complex modifications with such rules.
-/

namespace Karabiner.CoreConfiguration

open JsonUtility

/-! ### Parameters -/

namespace ComplexModificationsParameters

/-- The settings, in the order in which the constructor adds them. -/
inductive Setting
  | basicSimultaneousThresholdMilliseconds
  | basicToIfAloneTimeoutMilliseconds
  | basicToIfHeldDownThresholdMilliseconds
  | basicToDelayedActionDelayMilliseconds
  | mouseMotionToScrollSpeed
deriving DecidableEq, Repr

namespace Setting

def key : Setting → String
  | basicSimultaneousThresholdMilliseconds => "basic.simultaneous_threshold_milliseconds"
  | basicToIfAloneTimeoutMilliseconds => "basic.to_if_alone_timeout_milliseconds"
  | basicToIfHeldDownThresholdMilliseconds => "basic.to_if_held_down_threshold_milliseconds"
  | basicToDelayedActionDelayMilliseconds => "basic.to_delayed_action_delay_milliseconds"
  | mouseMotionToScrollSpeed => "mouse_motion_to_scroll.speed"

def default : Setting → Int32
  | basicSimultaneousThresholdMilliseconds => 50
  | basicToIfAloneTimeoutMilliseconds => 1000
  | basicToIfHeldDownThresholdMilliseconds => 500
  | basicToDelayedActionDelayMilliseconds => 500
  | mouseMotionToScrollSpeed => 100

/-- The smallest and the largest value that `adjust_values` leaves. -/
def bounds : Setting → Int32 × Option Int32
  | basicSimultaneousThresholdMilliseconds => (0, some 1000)
  | basicToIfAloneTimeoutMilliseconds => (0, none)
  | basicToIfHeldDownThresholdMilliseconds => (0, none)
  | basicToDelayedActionDelayMilliseconds => (0, none)
  | mouseMotionToScrollSpeed => (1, some 10000)

instance : SettingFamily Setting where
  key := key
  type := fun _ => .integer
  default := default
  all := [basicSimultaneousThresholdMilliseconds, basicToIfAloneTimeoutMilliseconds,
    basicToIfHeldDownThresholdMilliseconds, basicToDelayedActionDelayMilliseconds,
    mouseMotionToScrollSpeed]
  mem_all := by
    intro s
    cases s <;> decide
  nodup_keys := by decide

/-- `adjust_value`. -/
def adjust (s : Setting) (value : Int32) : Int32 :=
  let value := if value < s.bounds.1 then s.bounds.1 else value
  match s.bounds.2 with
  | some high => if high < value then high else value
  | none => value

end Setting

end ComplexModificationsParameters

/-- `complex_modifications_parameters`. -/
abbrev ComplexModificationsParameters : Type :=
  SettingsObject ComplexModificationsParameters.Setting

namespace ComplexModificationsParameters

/-- `adjust_values`. -/
def adjustValues (p : ComplexModificationsParameters) : ComplexModificationsParameters where
  members := p.members
  values := fun s => { p.values s with value := s.adjust (p.values s).value }

/-- A setter. -/
def set (s : Setting) (value : Int32) (p : ComplexModificationsParameters) :
    ComplexModificationsParameters :=
  adjustValues (p.setValue s value)

/-- The defaults need no adjustment. -/
@[simp] theorem adjustValues_default :
    adjustValues SettingsObject.default = SettingsObject.default := by
  unfold adjustValues
  congr 1
  funext s
  cases s <;> rfl

variable [NlohmannJson]

/-- The constructor from JSON. -/
def construct (errorHandling : ErrorHandling) (json : Json) :
    JsonM ComplexModificationsParameters := do
  return adjustValues (← SettingsObject.construct errorHandling json)

/-- `update`.  The JSON that is kept does not change. -/
def update (errorHandling : ErrorHandling) (json : Json) (p : ComplexModificationsParameters) :
    JsonM ComplexModificationsParameters := do
  let members ← requiresObject json "json"
  return adjustValues { p with values := ← HelperValues.updateValue errorHandling members p.values }

/-- The parameters are read as they were written, within their bounds. -/
theorem construct_toJson (errorHandling : ErrorHandling) (p : ComplexModificationsParameters) :
    construct errorHandling p.toJson = .ok (adjustValues p.reload) := by
  simp [construct, SettingsObject.construct_toJson]

/-- Whether parameters can be updated from JSON does not depend on them. -/
theorem exists_update {errorHandling : ErrorHandling} {json : Json}
    {p p' : ComplexModificationsParameters} (h : update errorHandling json p = .ok p')
    (other : ComplexModificationsParameters) :
    ∃ other', update errorHandling json other = .ok other' := by
  obtain ⟨members, hmembers, h⟩ := JsonM.bind_eq_ok.mp h
  obtain ⟨values', hvalues, -⟩ := JsonM.bind_eq_ok.mp h
  obtain ⟨others, hothers⟩ := (HelperValues.exists_updateValue_iff other.values).mpr
    ((HelperValues.exists_updateValue_iff p.values).mp ⟨values', hvalues⟩)
  exact ⟨_, by simp [update, hmembers, hothers]; rfl⟩

@[simp] theorem construct_object_nil (errorHandling : ErrorHandling) :
    construct errorHandling (.object []) = .ok (adjustValues SettingsObject.default) := by
  simp [construct]

end ComplexModificationsParameters

/-! ### Rules -/

namespace ComplexModificationsRule

/-- `manipulator`, with its conditions as they are in JSON. -/
structure Manipulator where
  json : Json
  conditions : List Json
  parameters : ComplexModificationsParameters
  description : String

namespace Manipulator

variable [NlohmannJson]

/-- The member under a key, if there is one. -/
def optionalField {α : Type} (read : Json → String → JsonM α) (members : Json.Members)
    (key : String) : JsonM (Option α) :=
  (members.lookup key).mapM fun json => read json (quote key)

/-- The constructor from JSON.  It starts with the parameters of the complex modifications. -/
def construct (errorHandling : ErrorHandling) (parameters : ComplexModificationsParameters)
    (json : Json) : JsonM Manipulator := do
  let parameters ← ComplexModificationsParameters.construct errorHandling parameters.toJson
  let members ← requiresObject json "json"
  let conditions ← optionalField requiresArray members "conditions"
  let description ← optionalField requiresString members "description"
  let parameters ←
    match members.lookup "parameters" with
    | some json => parameters.update errorHandling json
    | none => pure parameters
  return { json, conditions := conditions.getD [], parameters, description := description.getD "" }

/-- Whether a manipulator can be made does not depend on the parameters. -/
theorem exists_construct {errorHandling : ErrorHandling}
    {parameters : ComplexModificationsParameters} {json : Json} {m : Manipulator}
    (h : construct errorHandling parameters json = .ok m)
    (other : ComplexModificationsParameters) :
    ∃ m', construct errorHandling other json = .ok m' := by
  obtain ⟨p, -, h⟩ := JsonM.bind_eq_ok.mp h
  obtain ⟨members, hmembers, h⟩ := JsonM.bind_eq_ok.mp h
  obtain ⟨conditions, hconditions, h⟩ := JsonM.bind_eq_ok.mp h
  obtain ⟨description, hdescription, h⟩ := JsonM.bind_eq_ok.mp h
  simp only [construct, ComplexModificationsParameters.construct_toJson, hmembers, hconditions,
    hdescription, JsonM.ok_bind]
  cases hlookup : members.lookup "parameters" with
  | none => exact ⟨_, rfl⟩
  | some json =>
      rw [hlookup] at h
      obtain ⟨p', hp', -⟩ := JsonM.bind_eq_ok.mp h
      obtain ⟨q, hq⟩ := ComplexModificationsParameters.exists_update hp'
        (ComplexModificationsParameters.adjustValues other.reload)
      exact ⟨_, by simp only [hq]; rfl⟩

end Manipulator

/-- The one setting of a rule. -/
inductive Setting
  | enabled
deriving DecidableEq, Repr

instance : SettingFamily Setting where
  key := fun _ => "enabled"
  type := fun _ => .boolean
  default := fun _ => true
  all := [.enabled]
  mem_all := by
    rintro ⟨⟩
    decide
  nodup_keys := by decide

end ComplexModificationsRule

/-- `complex_modifications_rule`. -/
structure ComplexModificationsRule where
  settings : SettingsObject ComplexModificationsRule.Setting
  manipulators : List ComplexModificationsRule.Manipulator
  description : String

namespace ComplexModificationsRule

variable [NlohmannJson]

/-- The description of a rule without one is that of its first manipulator that has one. -/
def describe (description : String) (manipulators : List Manipulator) : String :=
  if description.isEmpty then
    ((manipulators.find? fun m => !m.description.isEmpty).map (·.description)).getD ""
  else description

/-- The manipulators of a rule. -/
def constructManipulators (errorHandling : ErrorHandling)
    (parameters : ComplexModificationsParameters) (members : Json.Members) :
    JsonM (List Manipulator) :=
  match members.lookup "manipulators" with
  | none => .ok []
  | some json => do
    (← requiresArray json (quote "manipulators")).mapM fun json =>
      atPath (quote "manipulators" ++ " entry")
        (Manipulator.construct errorHandling parameters json)

/-- The constructor from JSON.  It takes the members that are no settings in the order of their
keys; `available_since` is only checked. -/
def construct (errorHandling : ErrorHandling) (parameters : ComplexModificationsParameters)
    (json : Json) : JsonM ComplexModificationsRule := do
  let settings ← SettingsObject.construct errorHandling json
  let _ ← Manipulator.optionalField requiresString settings.members "available_since"
  let description ← Manipulator.optionalField requiresString settings.members "description"
  let manipulators ← constructManipulators errorHandling parameters settings.members
  if manipulators.isEmpty then
    throw (.unmarshalError ("`manipulators` is missing or empty in " ++ dumpForErrorMessage json))
  else
    return { settings, manipulators, description := describe (description.getD "") manipulators }

/-- `to_json`. -/
def toJson (r : ComplexModificationsRule) : Json := r.settings.toJson

/-- `get_enabled`. -/
def enabled (r : ComplexModificationsRule) : Bool := (r.settings.values .enabled).value

/-- `set_enabled`. -/
def setEnabled (value : Bool) (r : ComplexModificationsRule) : ComplexModificationsRule :=
  { r with settings := r.settings.setValue .enabled value }

/-- The checks that the constructor makes, for the members that are no settings. -/
structure Checked (errorHandling : ErrorHandling) (parameters : ComplexModificationsParameters)
    (members : Json.Members) (manipulators : List Manipulator) : Prop where
  availableSince : ∃ value, Manipulator.optionalField requiresString members "available_since" =
    .ok value
  description : ∃ value, Manipulator.optionalField requiresString members "description" = .ok value
  constructed : constructManipulators errorHandling parameters members = .ok manipulators
  nonempty : manipulators.isEmpty = false

/-- A rule that is accepted has had all its manipulators checked. -/
theorem checked_of_construct {errorHandling : ErrorHandling}
    {parameters : ComplexModificationsParameters} {json : Json} {r : ComplexModificationsRule}
    (h : construct errorHandling parameters json = .ok r) :
    SettingsObject.construct errorHandling json = .ok r.settings ∧
      Checked errorHandling parameters r.settings.members r.manipulators := by
  obtain ⟨settings, hsettings, h⟩ := JsonM.bind_eq_ok.mp h
  obtain ⟨availableSince, havailable, h⟩ := JsonM.bind_eq_ok.mp h
  obtain ⟨description, hdescription, h⟩ := JsonM.bind_eq_ok.mp h
  obtain ⟨manipulators, hmanipulators, h⟩ := JsonM.bind_eq_ok.mp h
  cases hempty : manipulators.isEmpty with
  | true => simp [hempty] at h
  | false =>
      rw [hempty] at h
      obtain rfl := Except.ok.inj h
      exact ⟨hsettings, ⟨availableSince, havailable⟩, ⟨description, hdescription⟩, hmanipulators,
        hempty⟩

theorem exists_construct {errorHandling : ErrorHandling}
    {parameters : ComplexModificationsParameters} {json : Json}
    {settings : SettingsObject Setting} {manipulators : List Manipulator}
    (hsettings : SettingsObject.construct errorHandling json = .ok settings)
    (hchecked : Checked errorHandling parameters settings.members manipulators) :
    ∃ r, construct errorHandling parameters json = .ok r := by
  obtain ⟨⟨_, havailable⟩, ⟨_, hdescription⟩, hmanipulators, hempty⟩ := hchecked
  simp only [construct, hsettings, havailable, hdescription, hmanipulators, hempty, JsonM.ok_bind]
  exact ⟨_, rfl⟩

/-- The JSON that the rule keeps is that of a rule. -/
def Valid (errorHandling : ErrorHandling) (r : ComplexModificationsRule) : Prop :=
  ∃ parameters manipulators, Checked errorHandling parameters r.settings.members manipulators

/-- An accepted rule is valid. -/
theorem Valid.of_construct {errorHandling : ErrorHandling}
    {parameters : ComplexModificationsParameters} {json : Json} {r : ComplexModificationsRule}
    (h : construct errorHandling parameters json = .ok r) : r.Valid errorHandling :=
  ⟨parameters, r.manipulators, (checked_of_construct h).2⟩

/-- Enabling or disabling a rule leaves it valid. -/
theorem Valid.setEnabled {errorHandling : ErrorHandling} {r : ComplexModificationsRule}
    (h : r.Valid errorHandling) (value : Bool) : (r.setEnabled value).Valid errorHandling := h

omit [NlohmannJson] in
/-- The members of a rule other than its flag are written as they were. -/
theorem lookup_toMembers (r : ComplexModificationsRule) {key : String} (hkey : key ≠ "enabled") :
    r.settings.toMembers.lookup key = r.settings.members.lookup key := by
  refine Json.lookup_putAll_of_notMem ?_ _
  rw [HelperValues.keys_entries]
  simpa [SettingFamily.all, SettingFamily.key] using hkey

/-- Whether the manipulators of a rule can be made does not depend on the parameters. -/
theorem exists_constructManipulators {errorHandling : ErrorHandling}
    {parameters : ComplexModificationsParameters} {members : Json.Members}
    {manipulators : List Manipulator}
    (h : constructManipulators errorHandling parameters members = .ok manipulators)
    (other : ComplexModificationsParameters) :
    ∃ manipulators', constructManipulators errorHandling other members = .ok manipulators' ∧
      manipulators'.length = manipulators.length := by
  unfold constructManipulators at h ⊢
  cases hlookup : members.lookup "manipulators" with
  | none => exact ⟨manipulators, by simpa [hlookup] using h, rfl⟩
  | some json =>
      simp only [hlookup] at h ⊢
      obtain ⟨elements, helements, h⟩ := JsonM.bind_eq_ok.mp h
      rw [helements, JsonM.ok_bind]
      refine exists_mapM h fun json m hm => ?_
      obtain ⟨m', hm'⟩ := Manipulator.exists_construct (atPath_eq_ok.mp hm) other
      exact ⟨m', by rw [hm', atPath_ok]⟩

/-- **A rule can be read again** after it is written, whatever the parameters are. -/
theorem construct_toJson {errorHandling : ErrorHandling} {r : ComplexModificationsRule}
    (h : r.Valid errorHandling) (parameters : ComplexModificationsParameters) :
    ∃ reloaded, construct errorHandling parameters r.toJson = .ok reloaded := by
  obtain ⟨_, manipulators, havailable, hdescription, hmanipulators, hempty⟩ := h
  obtain ⟨manipulators', hmanipulators', hlength⟩ :=
    exists_constructManipulators hmanipulators parameters
  have hlookup (key : String) (hkey : key ≠ "enabled") :
      r.settings.reload.members.lookup key = r.settings.members.lookup key :=
    r.lookup_toMembers hkey
  have hempty' : manipulators'.isEmpty = false := by
    rw [List.isEmpty_eq_false_iff, ← List.length_pos_iff, hlength, List.length_pos_iff,
      ← List.isEmpty_eq_false_iff]
    exact hempty
  refine exists_construct (SettingsObject.construct_toJson errorHandling r.settings)
    ⟨?_, ?_, ?_, hempty'⟩
  · rwa [Manipulator.optionalField, hlookup _ (by decide)]
  · rwa [Manipulator.optionalField, hlookup _ (by decide)]
  · rw [constructManipulators, hlookup _ (by decide)]
    exact hmanipulators'

/-- A rule always writes its manipulators. -/
theorem toJson_isEmpty_eq_false {errorHandling : ErrorHandling} {r : ComplexModificationsRule}
    (h : r.Valid errorHandling) : r.toJson.isEmpty = false := by
  obtain ⟨_, manipulators, -, -, hmanipulators, hempty⟩ := h
  rw [toJson, SettingsObject.toJson, Json.isEmpty, List.isEmpty_eq_false_iff]
  intro hnil
  have hlookup := r.lookup_toMembers (by decide : "manipulators" ≠ "enabled")
  rw [hnil, List.lookup_nil] at hlookup
  rw [constructManipulators, ← hlookup] at hmanipulators
  obtain rfl := Except.ok.inj hmanipulators
  cases hempty

end ComplexModificationsRule

/-! ### Complex modifications -/

/-- `complex_modifications`. -/
structure ComplexModifications where
  members : Json.Members := []
  parameters : ComplexModificationsParameters :=
    ComplexModificationsParameters.adjustValues SettingsObject.default
  rules : List ComplexModificationsRule := []

namespace ComplexModifications

/-- `push_front_rule`. -/
def pushFrontRule (rule : ComplexModificationsRule) (c : ComplexModifications) :
    ComplexModifications :=
  { c with rules := rule :: c.rules }

/-- `replace_rule`. -/
def replaceRule (index : ℕ) (rule : ComplexModificationsRule) (c : ComplexModifications) :
    ComplexModifications :=
  { c with rules := c.rules.set index rule }

/-- `erase_rule`. -/
def eraseRule (index : ℕ) (c : ComplexModifications) : ComplexModifications :=
  { c with rules := c.rules.eraseIdx index }

/-- `move_rule`. -/
def moveRule (sourceIndex destinationIndex : ℕ) (c : ComplexModifications) :
    ComplexModifications :=
  { c with rules := (VectorUtility.moveElement c.rules sourceIndex destinationIndex).getD c.rules }

/-- `set_enabled` of a rule. -/
def setEnabled (index : ℕ) (value : Bool) (c : ComplexModifications) : ComplexModifications :=
  { c with rules := c.rules.modify index (·.setEnabled value) }

/-- What `to_json` puts under each key. -/
def entries (c : ComplexModifications) : List (String × Option Json) := [
  ("parameters", savedObject c.parameters.toJson),
  ("rules", savedArray (c.rules.map ComplexModificationsRule.toJson))]

/-- The members of `to_json`. -/
def toMembers (c : ComplexModifications) : Json.Members := Json.putAll c.entries c.members

/-- `to_json`. -/
def toJson (c : ComplexModifications) : Json := .object c.toMembers

section

variable [NlohmannJson]

/-- The rules, which are skipped if they are not an array. -/
def constructRules (errorHandling : ErrorHandling) (parameters : ComplexModificationsParameters)
    (members : Json.Members) : JsonM (List ComplexModificationsRule) :=
  match members.lookup "rules" with
  | some (.array elements) =>
    elements.mapM (ComplexModificationsRule.construct errorHandling parameters)
  | _ => .ok []

/-- The constructor from JSON. -/
def construct (errorHandling : ErrorHandling) (json : Json) : JsonM ComplexModifications := do
  let parameters ← ComplexModificationsParameters.construct errorHandling (.object [])
  let members ← requiresObject json "json"
  let parameters ←
    updateObject "parameters" (ComplexModificationsParameters.construct errorHandling) members
      parameters
  let rules ← constructRules errorHandling parameters members
  return { members, parameters, rules }

@[simp] theorem construct_object_nil (errorHandling : ErrorHandling) :
    construct errorHandling (.object []) = .ok {} := by
  simp [construct, constructRules, requiresObject, updateObject]

end

/-- A call that changes the complex modifications, apart from adding a rule. -/
inductive Edit
  | setParameter (s : ComplexModificationsParameters.Setting) (value : Int32)
  | pushFrontRule (json : Json)
  | replaceRule (index : ℕ) (json : Json)
  | eraseRule (index : ℕ)
  | moveRule (sourceIndex destinationIndex : ℕ)
  | setEnabled (index : ℕ) (value : Bool)

variable [NlohmannJson]

/-- The effect of a call.  A rule to be added is first made from JSON. -/
def Edit.apply (errorHandling : ErrorHandling) (c : ComplexModifications) :
    Edit → ComplexModifications
  | setParameter s value => { c with parameters := c.parameters.set s value }
  | pushFrontRule json =>
    match ComplexModificationsRule.construct errorHandling c.parameters json with
    | .ok rule => c.pushFrontRule rule
    | .error _ => c
  | replaceRule index json =>
    match ComplexModificationsRule.construct errorHandling c.parameters json with
    | .ok rule => c.replaceRule index rule
    | .error _ => c
  | eraseRule index => c.eraseRule index
  | moveRule sourceIndex destinationIndex => c.moveRule sourceIndex destinationIndex
  | setEnabled index value => c.setEnabled index value

/-! ### Rules that can be read again -/

/-- Every rule was made from JSON. -/
def Valid (errorHandling : ErrorHandling) (c : ComplexModifications) : Prop :=
  ∀ rule ∈ c.rules, rule.Valid errorHandling

theorem valid_default (errorHandling : ErrorHandling) :
    ({} : ComplexModifications).Valid errorHandling := by
  intro rule hrule
  cases hrule

/-- Accepted complex modifications are valid. -/
theorem Valid.of_construct {errorHandling : ErrorHandling} {json : Json} {c : ComplexModifications}
    (h : construct errorHandling json = .ok c) : c.Valid errorHandling := by
  obtain ⟨_, -, h⟩ := JsonM.bind_eq_ok.mp h
  obtain ⟨members, -, h⟩ := JsonM.bind_eq_ok.mp h
  obtain ⟨parameters, -, h⟩ := JsonM.bind_eq_ok.mp h
  obtain ⟨rules, hrules, rfl⟩ := JsonM.bind_pure_eq_ok.mp h
  intro rule hrule
  unfold constructRules at hrules
  split at hrules
  · obtain ⟨json, -, hjson⟩ := exists_of_mem_mapM hrules hrule
    exact .of_construct hjson
  · obtain rfl := Except.ok.inj hrules
    cases hrule

theorem Valid.edit {errorHandling : ErrorHandling} {c : ComplexModifications}
    (h : c.Valid errorHandling) (edit : Edit) :
    (edit.apply errorHandling c).Valid errorHandling := by
  cases edit with
  | setParameter s value => exact h
  | pushFrontRule json =>
      simp only [Edit.apply]
      split
      · next rule hrule =>
          exact List.forall_mem_cons.mpr ⟨.of_construct hrule, h⟩
      · exact h
  | replaceRule index json =>
      simp only [Edit.apply]
      split
      · next rule hrule =>
          intro r hr
          rcases List.mem_or_eq_of_mem_set hr with hr | rfl
          · exact h r hr
          · exact .of_construct hrule
      · exact h
  | eraseRule index => exact fun r hr => h r (List.mem_of_mem_eraseIdx hr)
  | moveRule sourceIndex destinationIndex =>
      obtain ⟨rules, hmove, hperm⟩ :=
        VectorUtility.exists_moveElement c.rules sourceIndex destinationIndex
      intro r hr
      rw [Edit.apply, moveRule, hmove] at hr
      exact h r (hperm.mem_iff.mp hr)
  | setEnabled index value =>
      intro r hr
      obtain ⟨i, hi⟩ := List.mem_iff_getElem?.mp hr
      rw [Edit.apply, setEnabled, List.getElem?_modify] at hi
      obtain ⟨rule, hrule, rfl⟩ := Option.map_eq_some_iff.mp hi
      have hvalid := h rule (List.mem_of_getElem? hrule)
      split_ifs
      · exact hvalid.setEnabled value
      · exact hvalid

/-! ### What is written can be read again -/

omit [NlohmannJson] in
theorem nodup_keys (c : ComplexModifications) : (c.entries.map Prod.fst).Nodup := by
  simp [entries]

/-- **Complex modifications can be read again** after they are written. -/
theorem construct_toJson {errorHandling : ErrorHandling} {c : ComplexModifications}
    (h : c.Valid errorHandling) : ∃ reloaded, construct errorHandling c.toJson = .ok reloaded := by
  have hparameters : c.toMembers.lookup "parameters" = savedObject c.parameters.toJson :=
    Json.lookup_putAll c.nodup_keys (by simp [entries]) c.members
  have hrules : c.toMembers.lookup "rules" =
      savedArray (c.rules.map ComplexModificationsRule.toJson) :=
    Json.lookup_putAll c.nodup_keys (by simp [entries]) c.members
  have hread := updateObject_saved hparameters
    (ComplexModificationsParameters.construct_toJson errorHandling c.parameters)
    (.adjustValues SettingsObject.default)
  have hconstruct (parameters : ComplexModificationsParameters) :
      ∃ rules, constructRules errorHandling parameters c.toMembers = .ok rules := by
    unfold constructRules
    rw [hrules, savedArray, savedObject]
    split_ifs with hempty
    · exact ⟨[], rfl⟩
    · refine exists_mapM_of_forall fun json hjson => ?_
      obtain ⟨rule, hrule, rfl⟩ := List.mem_map.mp (List.mem_filter.mp hjson).1
      exact ComplexModificationsRule.construct_toJson (h rule hrule) parameters
  obtain ⟨rules, hrules'⟩ := hconstruct (if c.parameters.toJson.isEmpty then
    .adjustValues SettingsObject.default else .adjustValues c.parameters.reload)
  simp only [construct, toJson, requiresObject, ComplexModificationsParameters.construct_object_nil,
    JsonM.ok_bind, hread, hrules']
  exact ⟨_, rfl⟩

/-- Nothing is written for the parameters or a rule, and the JSON had no other member. -/
structure Blank (c : ComplexModifications) : Prop where
  parameters : c.parameters.Blank
  rules : c.rules = []
  members : ∀ m ∈ c.members, m.1 ∈ ["parameters", "rules"]

omit [NlohmannJson] in
theorem blank_default : Blank {} := by
  refine ⟨?_, rfl, by simp⟩
  rw [ComplexModificationsParameters.adjustValues_default]
  exact ⟨fun _ => rfl, by simp [SettingsObject.default]⟩

/-- Nothing is written if there is nothing to keep. -/
theorem toJson_isEmpty_iff {errorHandling : ErrorHandling} {c : ComplexModifications}
    (h : c.Valid errorHandling) : c.toJson.isEmpty ↔ c.Blank := by
  have hrules : (∀ json ∈ c.rules.map ComplexModificationsRule.toJson, json.isEmpty) ↔
      c.rules = [] := by
    rw [List.forall_mem_map, List.eq_nil_iff_forall_not_mem]
    refine forall₂_congr fun rule hrule => ?_
    simp [ComplexModificationsRule.toJson_isEmpty_eq_false (h rule hrule)]
  have hentries : (∀ entry ∈ c.entries, entry.2 = none) ↔ c.parameters.Blank ∧ c.rules = [] := by
    rw [← hrules, ← SettingsObject.toJson_isEmpty_iff]
    simp [entries]
  rw [toJson, Json.isEmpty, List.isEmpty_iff, toMembers, Json.putAll_eq_nil_iff c.nodup_keys,
    hentries]
  constructor
  · rintro ⟨⟨hparameters, hnil⟩, hmembers⟩
    exact ⟨hparameters, hnil, hmembers⟩
  · intro h
    exact ⟨⟨h.parameters, h.rules⟩, h.members⟩

end ComplexModifications

end Karabiner.CoreConfiguration
