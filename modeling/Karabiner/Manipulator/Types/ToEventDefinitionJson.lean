import Karabiner.Manipulator.ConditionFactory
import Karabiner.Manipulator.Types.EventDefinitionJson

/-!
# The JSON of what a rule maps to

The constructor of `share/manipulator/types/to_event_definition.hpp` and the readers of modifiers.

* `EventDefinitionObject.Reads` — the event definition that a list of members describes, and its
  invariant: at most one member gives the definition its type.
* `ToEventDefinitionObject.wellFormed_iff` — **an accepted definition is well-formed** unless it has
  the member `sticky_modifier` with an empty object.
-/

namespace Karabiner

open JsonUtility

/-! ### Modifiers -/

namespace Modifier

variable [NlohmannJson]

/-- The names of the modifiers. -/
def names : List (String × Modifier) := [
  ("any", .any), ("caps_lock", .capsLock), ("command", .command), ("control", .control),
  ("fn", .fn), ("left_command", .leftCommand), ("left_gui", .leftCommand),
  ("left_control", .leftControl), ("left_option", .leftOption), ("left_alt", .leftOption),
  ("left_shift", .leftShift), ("option", .option), ("right_command", .rightCommand),
  ("right_gui", .rightCommand), ("right_control", .rightControl), ("right_option", .rightOption),
  ("right_alt", .rightOption), ("right_shift", .rightShift), ("shift", .shift), ("end_", .end_)]

/-- `from_json`. -/
def fromJson (json : Json) : JsonM Modifier := do
  let name ← requiresString json (quote "modifier")
  match names.lookup name with
  | some m => return m
  | none => .error (.unmarshalError ("unknown modifier: " ++ quote name))

/-- `make_modifiers`. -/
def makeModifiers (json : Json) : JsonM (Finset Modifier) :=
  match json with
  | .string _ => return {← fromJson json}
  | .array elements => return (← elements.mapM fromJson).toFinset
  | _ => .error (.unmarshalError
      ("json must be array or string, but is " ++ quote (dumpForErrorMessage json)))

end Modifier

/-- `from_json` of a `from_modifiers_definition`. -/
def FromModifiersDefinition.fromJson [NlohmannJson] (json : Json) : JsonM FromModifiersDefinition :=
  readObject
    (fun d key value =>
      if key = "mandatory" then
        return { d with
          mandatoryModifiers := ← atPath (quote key) (Modifier.makeModifiers value) }
      else if key = "optional" then
        return { d with optionalModifiers := ← atPath (quote key) (Modifier.makeModifiers value) }
      else if key = "description" then return d
      else .error (ConditionFactory.unknownKeyIn key json))
    {} json

/-! ### The members that describe an event -/

namespace EventDefinitionObject

/-- One of the members gives the definition the type `sticky_modifier` without a value. -/
def HasEmptyStickyModifier (members : Json.Members) : Prop :=
  ("sticky_modifier", .object []) ∈ members

/-- What is known of a definition after some members: it has no type, or it has the type of its
value, unless the value is missing because of an empty `sticky_modifier`. -/
structure Reads (members : Json.Members) (d : EventDefinitionObject) : Prop where
  untyped : d.type = .none → d = {} ∧ ¬HasEmptyStickyModifier members
  wellFormed : d.WellFormed ↔ ¬HasEmptyStickyModifier members
  stickyModifier : ¬d.WellFormed → d.type = .stickyModifier

theorem reads_nil : Reads [] {} := by
  have hempty : ¬HasEmptyStickyModifier [] := List.not_mem_nil
  exact ⟨fun _ => ⟨rfl, hempty⟩, iff_of_true rfl hempty, absurd rfl⟩

theorem hasEmptyStickyModifier_concat {members : Json.Members} {key : String} {value : Json} :
    HasEmptyStickyModifier (members ++ [(key, value)]) ↔
      HasEmptyStickyModifier members ∨ key = "sticky_modifier" ∧ value = .object [] := by
  simp [HasEmptyStickyModifier, eq_comm]

/-- A member that does not describe the event leaves the definition as it is. -/
theorem Reads.concat_of_ne {members : Json.Members} {d : EventDefinitionObject}
    (h : d.Reads members) {key : String} (value : Json) (hkey : key ≠ "sticky_modifier") :
    d.Reads (members ++ [(key, value)]) := by
  have hsame : HasEmptyStickyModifier (members ++ [(key, value)]) ↔
      HasEmptyStickyModifier members := by
    simp [hasEmptyStickyModifier_concat, hkey]
  exact ⟨fun hnone => (h.untyped hnone).imp_right hsame.not.mpr, h.wellFormed.trans hsame.not.symm,
    h.stickyModifier⟩

/-- A member that `handle_json` took. -/
theorem Reads.concat_of_handled {members : Json.Members} {d d' : EventDefinitionObject}
    (h : d.Reads members) {key : String} {value : Json} (hhandled : Handled d key value d') :
    d'.Reads (members ++ [(key, value)]) := by
  cases hhandled with
  | described key_eq => exact h.concat_of_ne value (by simp [key_eq])
  | typed untyped typed wellFormed nonempty =>
      have hempty : ¬HasEmptyStickyModifier (members ++ [(key, value)]) := by
        rw [hasEmptyStickyModifier_concat]
        rintro (hempty | ⟨hkey, hvalue⟩)
        · exact (h.untyped untyped).2 hempty
        · exact nonempty hkey hvalue
      exact ⟨fun hnone => absurd hnone typed, iff_of_true wellFormed hempty, absurd wellFormed⟩
  | empty untyped key_eq value_eq =>
      have hempty : HasEmptyStickyModifier (members ++ [(key, value)]) :=
        hasEmptyStickyModifier_concat.mpr (.inr ⟨key_eq, value_eq⟩)
      have hvalue : d.value = .monostate :=
        congrArg EventDefinitionObject.value (h.untyped untyped).1
      refine ⟨nofun, iff_of_false (fun hwf => ?_) (not_not.mpr hempty), fun _ => rfl⟩
      simp [WellFormed, hvalue, EventDefinition.Value.type] at hwf

end EventDefinitionObject

/-! ### `to_event_definition` -/

/-- The members of a `to_event_definition`, by default those that its constructor sets. -/
structure ToEventDefinitionObject where
  eventDefinition : EventDefinitionObject := {}
  modifiers : Finset Modifier := ∅
  isLazy : Bool := false
  «repeat» : Bool := true
  halt : Bool := false
  holdDownMilliseconds : ℤ := 0
  conditions : List ConditionDefinition := []

namespace ToEventDefinitionObject

variable [NlohmannJson] [Regex] [Exprtk]

/-- Read the elements of an array.  The wrappers of their expressions are allocated by their
indices. -/
def readElements {α : Type} (read : (String → ℕ) → Json → JsonM α) (allocate : String → ℕ)
    (elements : List Json) : JsonM (List α) :=
  elements.zipIdx.mapM fun (j, i) => read (fun path => allocate (toString i ++ "/" ++ path)) j

/-- The members that describe no event. -/
def readOption (allocate : String → ℕ) (json : Json) (d : ToEventDefinitionObject) (key : String)
    (value : Json) : JsonM ToEventDefinitionObject :=
  if key = "modifiers" then
    return { d with modifiers := ← atPath (quote key) (Modifier.makeModifiers value) }
  else if key = "lazy" then return { d with isLazy := ← requiresBoolean value (quote key) }
  else if key = "repeat" then return { d with «repeat» := ← requiresBoolean value (quote key) }
  else if key = "halt" then return { d with halt := ← requiresBoolean value (quote key) }
  else if key = "hold_down_milliseconds" ∨ key = "held_down_milliseconds" then
    return { d with
      holdDownMilliseconds := ← requiresNumber (Json.toInt 32) value (quote key) }
  else if key = "conditions" then do
    let elements ← requiresArray value (quote key)
    return { d with
      conditions := d.conditions ++
        (← readElements ConditionFactory.makeCondition allocate elements) }
  else .error (ConditionFactory.unknownKeyIn key json)

/-- One member. -/
def readMember (allocate : String → ℕ) (json : Json) (d : ToEventDefinitionObject) (key : String)
    (value : Json) : JsonM ToEventDefinitionObject := do
  match ← d.eventDefinition.handleJson allocate key value json with
  | some e => return { d with eventDefinition := e }
  | none => d.readOption allocate json key value

/-- The constructor from JSON. -/
def fromJson (allocate : String → ℕ) (json : Json) : JsonM ToEventDefinitionObject := do
  let d ← readObject (readMember allocate json) {} json
  if d.eventDefinition.type = .none ∨ d.eventDefinition.type = .any then
    .error (.unmarshalError ("event type is invalid: " ++ quote (dumpForErrorMessage json)))
  else return d

/-- An object, or an array of objects. -/
def readList (allocate : String → ℕ) (key : String) (value : Json) :
    JsonM (List ToEventDefinitionObject) :=
  match value with
  | .object _ => return [← atPath (quote key) (fromJson allocate value)]
  | .array elements => atPath (quote key ++ " entry") (readElements fromJson allocate elements)
  | _ => .error (.unmarshalError
      (quote key ++ " must be object or array, but is " ++ quote (dumpForErrorMessage value)))

/-- A member that describes no event is no `sticky_modifier`. -/
theorem readOption_spec {allocate : String → ℕ} {json : Json} {d d' : ToEventDefinitionObject}
    {key : String} {value : Json} (h : d.readOption allocate json key value = .ok d') :
    d'.eventDefinition = d.eventDefinition ∧ key ≠ "sticky_modifier" := by
  unfold readOption at h
  simp only [JsonM.pure_eq_ok] at h
  split_ifs at h with hmodifiers hlazy hrepeat hhalt hhold hconditions
  · obtain ⟨_, -, rfl⟩ := JsonM.bind_pure_eq_ok.mp h
    exact ⟨rfl, by simp [hmodifiers]⟩
  · obtain ⟨_, -, rfl⟩ := JsonM.bind_pure_eq_ok.mp h
    exact ⟨rfl, by simp [hlazy]⟩
  · obtain ⟨_, -, rfl⟩ := JsonM.bind_pure_eq_ok.mp h
    exact ⟨rfl, by simp [hrepeat]⟩
  · obtain ⟨_, -, rfl⟩ := JsonM.bind_pure_eq_ok.mp h
    exact ⟨rfl, by simp [hhalt]⟩
  · obtain ⟨_, -, rfl⟩ := JsonM.bind_pure_eq_ok.mp h
    refine ⟨rfl, ?_⟩
    rcases hhold with rfl | rfl <;> decide
  · obtain ⟨_, -, h⟩ := JsonM.bind_eq_ok.mp h
    obtain ⟨_, -, rfl⟩ := JsonM.bind_pure_eq_ok.mp h
    exact ⟨rfl, by simp [hconditions]⟩

/-- The event definition of the object is that of its members. -/
theorem reads_of_readMembers {allocate : String → ℕ} {json : Json} {members : Json.Members}
    {d : ToEventDefinitionObject} (h : readMembers (readMember allocate json) {} members = .ok d) :
    d.eventDefinition.Reads members := by
  refine readMembers_invariant (P := fun members d => d.eventDefinition.Reads members)
    EventDefinitionObject.reads_nil (fun members d key value d' hd h => ?_) h
  obtain ⟨e, he, h⟩ := JsonM.bind_eq_ok.mp h
  cases e with
  | some e =>
      obtain rfl := Except.ok.inj h
      exact hd.concat_of_handled (EventDefinitionObject.handled_of_handleJson he)
  | none =>
      obtain ⟨hsame, hkey⟩ := readOption_spec h
      exact hsame ▸ hd.concat_of_ne value hkey

/-- **An accepted definition is well-formed** unless it has an empty `sticky_modifier`. -/
theorem wellFormed_iff {allocate : String → ℕ} {json : Json} {d : ToEventDefinitionObject}
    (h : fromJson allocate json = .ok d) :
    d.eventDefinition.WellFormed ↔
      ∀ members, json = .object members →
        ¬EventDefinitionObject.HasEmptyStickyModifier members := by
  obtain ⟨d, hread, h⟩ := JsonM.bind_eq_ok.mp h
  split_ifs at h with htype
  obtain rfl := Except.ok.inj h
  obtain ⟨members, hmembers, hread⟩ := JsonM.bind_eq_ok.mp hread
  obtain rfl := requiresObject_eq_ok.mp hmembers
  simpa using (reads_of_readMembers hread).wellFormed

end ToEventDefinitionObject

end Karabiner
