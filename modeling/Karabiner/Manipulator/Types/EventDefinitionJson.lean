import Karabiner.EventQueue.Event.SetVariableJson
import Karabiner.EventQueue.Event.SoftwareFunctionJson
import Karabiner.Manipulator.Types
import Karabiner.MomentarySwitchEvent.Json

/-!
# The JSON of event definitions

`event_definition::handle_json` of `share/manipulator/types/event_definition.hpp`, which the readers
of `to`, `from` and `simultaneous` call for each of their members.

The class keeps a type next to a variant, and `to_event` takes the alternative that belongs to the
type.  The reader sets the two in an order that depends on the key, so it works on an
`EventDefinitionObject`, the pair of members; `EventDefinition.object` is the pair of a well-formed
definition.

* `EventDefinitionObject.sound_iff_wellFormed` — a definition can be used without an exception iff
  its variant holds the alternative of its type.
* `EventDefinitionObject.handled_of_handleJson` — **what one member does**: nothing, or it gives a
  definition without a type a type and a value; only the member `sticky_modifier` with an empty
  object gives it a type alone.
-/

namespace Karabiner

open JsonUtility

/-! ### The members of the class -/

/-- `event_definition::type`. -/
inductive EventDefinition.Type
  | none
  | momentarySwitchEvent
  | any
  | shellCommand
  | selectInputSource
  | setVariable
  | setNotificationMessage
  | mouseKey
  | stickyModifier
  | softwareFunction
deriving DecidableEq, Repr

/-- `event_definition::value_t`. -/
inductive EventDefinition.Value
  | momentarySwitchEvent (e : MomentarySwitchEvent)
  | any (type : AnyType)
  | string (s : String)
  | specifiers (specifiers : List InputSourceSpecifier)
  | setVariable (v : SetVariable)
  | notificationMessage (m : NotificationMessage)
  | mouseKey (m : MouseKey)
  | stickyModifier (m : ModifierFlag) (type : StickyModifierType)
  | softwareFunction (f : SoftwareFunction)
  | monostate
deriving DecidableEq, Repr

/-- The type an alternative belongs to. -/
def EventDefinition.Value.type : EventDefinition.Value → EventDefinition.Type
  | .momentarySwitchEvent _ => .momentarySwitchEvent
  | .any _ => .any
  | .string _ => .shellCommand
  | .specifiers _ => .selectInputSource
  | .setVariable _ => .setVariable
  | .notificationMessage _ => .setNotificationMessage
  | .mouseKey _ => .mouseKey
  | .stickyModifier _ _ => .stickyModifier
  | .softwareFunction _ => .softwareFunction
  | .monostate => .none

/-- The members of an `event_definition`, by default those that its constructor sets. -/
structure EventDefinitionObject where
  type : EventDefinition.Type := .none
  value : EventDefinition.Value := .monostate
deriving DecidableEq, Repr

/-- `std::bad_variant_access`. -/
inductive BadVariantAccess
  | badVariantAccess
deriving DecidableEq, Repr

namespace EventDefinition

/-- The members of a definition. -/
def object : EventDefinition → EventDefinitionObject
  | none => ⟨.none, .monostate⟩
  | momentarySwitchEvent e => ⟨.momentarySwitchEvent, .momentarySwitchEvent e⟩
  | any type => ⟨.any, .any type⟩
  | shellCommand command => ⟨.shellCommand, .string command⟩
  | selectInputSource specifiers => ⟨.selectInputSource, .specifiers specifiers⟩
  | setVariable v => ⟨.setVariable, .setVariable v⟩
  | setNotificationMessage m => ⟨.setNotificationMessage, .notificationMessage m⟩
  | mouseKey m => ⟨.mouseKey, .mouseKey m⟩
  | stickyModifier m type => ⟨.stickyModifier, .stickyModifier m type⟩
  | softwareFunction f => ⟨.softwareFunction, .softwareFunction f⟩

end EventDefinition

namespace EventDefinitionObject

/-- `to_event`. -/
def toEvent (d : EventDefinitionObject) : Except BadVariantAccess (Option Event) :=
  match d.type, d.value with
  | .none, _ => .ok none
  | .momentarySwitchEvent, .momentarySwitchEvent e => .ok (some (.momentarySwitchEvent e))
  | .any, _ => .ok none
  | .shellCommand, .string command => .ok (some (.shellCommand command))
  | .selectInputSource, .specifiers specifiers => .ok (some (.selectInputSource specifiers))
  | .setVariable, .setVariable v => .ok (some (.setVariable v))
  | .setNotificationMessage, .notificationMessage m => .ok (some (.setNotificationMessage m))
  | .mouseKey, .mouseKey m => .ok (some (.mouseKey m))
  | .stickyModifier, .stickyModifier m type => .ok (some (.stickyModifier m type))
  | .softwareFunction, .softwareFunction f => .ok (some (.softwareFunction f))
  | _, _ => .error .badVariantAccess

/-- `get_shell_command`. -/
def getShellCommand (d : EventDefinitionObject) : Except BadVariantAccess (Option String) :=
  match d.type, d.value with
  | .shellCommand, .string command => .ok (some command)
  | .shellCommand, _ => .error .badVariantAccess
  | _, _ => .ok none

/-- `get_input_source_specifiers`. -/
def getInputSourceSpecifiers (d : EventDefinitionObject) :
    Except BadVariantAccess (Option (List InputSourceSpecifier)) :=
  match d.type, d.value with
  | .selectInputSource, .specifiers specifiers => .ok (some specifiers)
  | .selectInputSource, _ => .error .badVariantAccess
  | _, _ => .ok none

/-- `get_set_variable`. -/
def getSetVariable (d : EventDefinitionObject) : Except BadVariantAccess (Option SetVariable) :=
  match d.type, d.value with
  | .setVariable, .setVariable v => .ok (some v)
  | .setVariable, _ => .error .badVariantAccess
  | _, _ => .ok none

/-- The variant holds the alternative of the type. -/
def WellFormed (d : EventDefinitionObject) : Prop := d.value.type = d.type

instance (d : EventDefinitionObject) : Decidable d.WellFormed :=
  inferInstanceAs (Decidable (_ = _))

/-- The variant holds the alternative of the type, and no reader throws. -/
structure Sound (d : EventDefinitionObject) : Prop where
  wellFormed : d.WellFormed
  toEvent : ∃ event, d.toEvent = .ok event
  getShellCommand : ∃ command, d.getShellCommand = .ok command
  getInputSourceSpecifiers : ∃ specifiers, d.getInputSourceSpecifiers = .ok specifiers
  getSetVariable : ∃ v, d.getSetVariable = .ok v

/-- A well-formed pair is that of a definition, and gives its event. -/
theorem wellFormed_iff_exists_object {d : EventDefinitionObject} :
    d.WellFormed ↔ ∃ e : EventDefinition, e.object = d ∧ d.toEvent = .ok e.toEvent := by
  constructor
  · obtain ⟨type, value⟩ := d
    rintro (rfl : value.type = type)
    cases value with
    | momentarySwitchEvent e => exact ⟨.momentarySwitchEvent e, rfl, rfl⟩
    | any type => exact ⟨.any type, rfl, rfl⟩
    | string s => exact ⟨.shellCommand s, rfl, rfl⟩
    | specifiers specifiers => exact ⟨.selectInputSource specifiers, rfl, rfl⟩
    | setVariable v => exact ⟨.setVariable v, rfl, rfl⟩
    | notificationMessage m => exact ⟨.setNotificationMessage m, rfl, rfl⟩
    | mouseKey m => exact ⟨.mouseKey m, rfl, rfl⟩
    | stickyModifier m type => exact ⟨.stickyModifier m type, rfl, rfl⟩
    | softwareFunction f => exact ⟨.softwareFunction f, rfl, rfl⟩
    | monostate => exact ⟨.none, rfl, rfl⟩
  · rintro ⟨e, rfl, -⟩
    cases e <;> rfl

/-- A definition can be used iff it is well-formed. -/
theorem sound_iff_wellFormed {d : EventDefinitionObject} : d.Sound ↔ d.WellFormed := by
  refine ⟨Sound.wellFormed, fun h => ?_⟩
  obtain ⟨e, rfl, hevent⟩ := wellFormed_iff_exists_object.mp h
  exact
    { wellFormed := h
      toEvent := ⟨_, hevent⟩
      getShellCommand := by cases e <;> exact ⟨_, rfl⟩
      getInputSourceSpecifiers := by cases e <;> exact ⟨_, rfl⟩
      getSetVariable := by cases e <;> exact ⟨_, rfl⟩ }

/-! ### Reading -/

/-- The keys of a momentary switch. -/
def momentarySwitchEventKeys : List String :=
  ["key_code", "consumer_key_code", "apple_vendor_keyboard_key_code",
    "apple_vendor_top_case_key_code", "generic_desktop", "pointing_button"]

variable [NlohmannJson]

/-- `check_type`. -/
def checkType (d : EventDefinitionObject) (json : Json) : JsonM Unit :=
  if d.type ≠ .none then
    .error (.unmarshalError
      ("multiple types are specified: " ++ quote (dumpForErrorMessage json)))
  else .ok ()

/-- The value of `any`. -/
def readAnyType (key : String) (value : Json) : JsonM AnyType := do
  let s ← requiresString value (quote key)
  if s = "key_code" then return .keyCode
  else if s = "consumer_key_code" then return .consumerKeyCode
  else if s = "apple_vendor_keyboard_key_code" then return .appleVendorKeyboardKeyCode
  else if s = "apple_vendor_top_case_key_code" then return .appleVendorTopCaseKeyCode
  else if s = "pointing_button" then return .pointingButton
  else .error (.unmarshalError
    ("unknown " ++ quote key ++ ": " ++ quote (dumpForErrorMessage value)))

/-- The value of `select_input_source`. -/
def readSpecifiers [Regex] (key : String) (value : Json) : JsonM (List InputSourceSpecifier) :=
  match value with
  | .object _ => return [← atPath (quote key) (InputSourceSpecifier.fromJson value)]
  | .array _ => atPath (quote key) (InputSourceSpecifier.vectorFromJson value)
  | _ => .error (.unmarshalError
      (quote key ++ " must be object or array of objects, but is " ++
        quote (dumpForErrorMessage value)))

/-- The value of `set_variable`. -/
def readSetVariable [Exprtk] (allocate : String → ℕ) (key : String) (value : Json) :
    JsonM SetVariable := do
  let v ← atPath (quote key) (SetVariable.fromJson allocate value)
  if v.name = none then
    .error (.unmarshalError
      (quote (key ++ ".name") ++ " is not found in " ++ quote (dumpForErrorMessage value)))
  else if v.type = .set ∧ v.value = none ∧ v.expression = none ∧ v.keyUpValue = none ∧
      v.keyUpExpression = none then
    .error (.unmarshalError
      ("none of " ++ quote (key ++ ".value") ++ ", " ++ quote (key ++ ".expression") ++ ", " ++
        quote (key ++ ".key_up_value") ++ ", or " ++ quote (key ++ ".key_up_expression") ++
        " are not found in " ++ quote (dumpForErrorMessage value)))
  else return v

/-- One member of the object of `sticky_modifier`.  The last one counts. -/
def readStickyModifier (key : String) (d : EventDefinitionObject) (k : String) (v : Json) :
    JsonM EventDefinitionObject := do
  let m ← atPath (quote key) (ModifierFlag.fromJson (.string k))
  let type ← atPath (quote key) (StickyModifierType.fromJson v)
  return { d with value := .stickyModifier m type }

/-- `handle_json`; `none` for a key that it does not know.  The wrappers of expressions are
allocated by their keys. -/
def handleJson [Regex] [Exprtk] (allocate : String → ℕ) (d : EventDefinitionObject) (key : String)
    (value json : Json) : JsonM (Option EventDefinitionObject) :=
  if key ∈ momentarySwitchEventKeys then do
    d.checkType json
    let e ← atPath (quote key) (MomentarySwitchEvent.fromJson (.object [(key, value)]))
    return some ⟨.momentarySwitchEvent, .momentarySwitchEvent e⟩
  else if key = "any" then do
    d.checkType json
    let type ← readAnyType key value
    return some ⟨.any, .any type⟩
  else if key = "shell_command" then do
    d.checkType json
    let command ← requiresString value (quote key)
    return some ⟨.shellCommand, .string command⟩
  else if key = "select_input_source" then do
    d.checkType json
    let specifiers ← readSpecifiers key value
    return some ⟨.selectInputSource, .specifiers specifiers⟩
  else if key = "set_variable" then do
    d.checkType json
    let v ← readSetVariable allocate key value
    return some ⟨.setVariable, .setVariable v⟩
  else if key = "set_notification_message" then do
    d.checkType json
    let m ← atPath (quote key) (NotificationMessage.fromJson value)
    return some ⟨.setNotificationMessage, .notificationMessage m⟩
  else if key = "mouse_key" then do
    d.checkType json
    let m ← atPath (quote key) (MouseKey.fromJson value)
    return some ⟨.mouseKey, .mouseKey m⟩
  else if key = "sticky_modifier" then do
    d.checkType json
    let members ← requiresObject value (quote key)
    -- The type is set before the loop over the members.
    let d ← readMembers (readStickyModifier key) { d with type := .stickyModifier } members
    return some d
  else if key = "software_function" then do
    d.checkType json
    let f ← atPath (quote key) (SoftwareFunction.fromJson value)
    return some ⟨.softwareFunction, .softwareFunction f⟩
  else if key = "description" then return some d
  else return none

/-! ### What one member does -/

omit [NlohmannJson] in
/-- A member that `handle_json` took: what it made of the definition. -/
inductive Handled (d : EventDefinitionObject) (key : String) (value : Json) :
    EventDefinitionObject → Prop
  | described (key_eq : key = "description") : Handled d key value d
  | typed {d' : EventDefinitionObject} (untyped : d.type = .none) (typed : d'.type ≠ .none)
      (wellFormed : d'.WellFormed) (nonempty : key = "sticky_modifier" → value ≠ .object []) :
      Handled d key value d'
  | empty (untyped : d.type = .none) (key_eq : key = "sticky_modifier")
      (value_eq : value = .object []) : Handled d key value { d with type := .stickyModifier }

theorem checkType_eq_ok {d : EventDefinitionObject} {json : Json} {u : Unit} :
    d.checkType json = .ok u ↔ d.type = .none := by
  unfold checkType
  split_ifs with h <;> simp_all

/-- A branch that checks the type, reads a value and sets the two. -/
theorem typed_of_bind {α : Type} {d d' : EventDefinitionObject} {json : Json} {read : JsonM α}
    {make : α → EventDefinitionObject}
    (h : (d.checkType json >>= fun _ => read >>= fun a => pure (some (make a))) = .ok (some d')) :
    d.type = .none ∧ ∃ a, read = .ok a ∧ make a = d' := by
  obtain ⟨_, hcheck, h⟩ := JsonM.bind_eq_ok.mp h
  obtain ⟨a, hread, h⟩ := JsonM.bind_eq_ok.mp h
  exact ⟨checkType_eq_ok.mp hcheck, a, hread, Option.some.inj (Except.ok.inj h)⟩

/-- The loop over the members of `sticky_modifier` keeps the type, and sets the value if there is a
member. -/
theorem readMembers_readStickyModifier {key : String} {d d' : EventDefinitionObject}
    {members : Json.Members} (h : readMembers (readStickyModifier key) d members = .ok d') :
    d'.type = d.type ∧
      (members = [] ∧ d' = d ∨ members ≠ [] ∧ d'.value.type = .stickyModifier) := by
  induction members generalizing d with
  | nil => exact ⟨congrArg type (Except.ok.inj h).symm, .inl ⟨rfl, (Except.ok.inj h).symm⟩⟩
  | cons member members ih =>
      obtain ⟨k, v⟩ := member
      rw [readMembers_cons] at h
      obtain ⟨d₁, hd₁, h⟩ := JsonM.bind_eq_ok.mp h
      obtain ⟨m, -, hd₁⟩ := JsonM.bind_eq_ok.mp hd₁
      obtain ⟨type, -, rfl⟩ := JsonM.bind_pure_eq_ok.mp hd₁
      obtain ⟨htype, hvalue⟩ := ih h
      refine ⟨htype, .inr ⟨List.cons_ne_nil _ _, ?_⟩⟩
      rcases hvalue with ⟨-, rfl⟩ | ⟨-, hvalue⟩
      · rfl
      · exact hvalue

/-- **What one member does.** -/
theorem handled_of_handleJson [Regex] [Exprtk] {allocate : String → ℕ}
    {d d' : EventDefinitionObject} {key : String} {value json : Json}
    (h : d.handleJson allocate key value json = .ok (some d')) : Handled d key value d' := by
  unfold handleJson at h
  by_cases hkey : key ∈ momentarySwitchEventKeys
  · have hne : key ≠ "sticky_modifier" := ne_of_mem_of_not_mem hkey (by decide)
    rw [if_pos hkey] at h
    obtain ⟨hnone, _, -, rfl⟩ := typed_of_bind h
    exact .typed hnone nofun rfl (absurd · hne)
  rw [if_neg hkey] at h
  by_cases hkey : key = "any"
  · rw [if_pos hkey] at h
    obtain ⟨hnone, _, -, rfl⟩ := typed_of_bind h
    exact .typed hnone nofun rfl (by simp [hkey])
  rw [if_neg hkey] at h
  by_cases hkey : key = "shell_command"
  · rw [if_pos hkey] at h
    obtain ⟨hnone, _, -, rfl⟩ := typed_of_bind h
    exact .typed hnone nofun rfl (by simp [hkey])
  rw [if_neg hkey] at h
  by_cases hkey : key = "select_input_source"
  · rw [if_pos hkey] at h
    obtain ⟨hnone, _, -, rfl⟩ := typed_of_bind h
    exact .typed hnone nofun rfl (by simp [hkey])
  rw [if_neg hkey] at h
  by_cases hkey : key = "set_variable"
  · rw [if_pos hkey] at h
    obtain ⟨hnone, _, -, rfl⟩ := typed_of_bind h
    exact .typed hnone nofun rfl (by simp [hkey])
  rw [if_neg hkey] at h
  by_cases hkey : key = "set_notification_message"
  · rw [if_pos hkey] at h
    obtain ⟨hnone, _, -, rfl⟩ := typed_of_bind h
    exact .typed hnone nofun rfl (by simp [hkey])
  rw [if_neg hkey] at h
  by_cases hkey : key = "mouse_key"
  · rw [if_pos hkey] at h
    obtain ⟨hnone, _, -, rfl⟩ := typed_of_bind h
    exact .typed hnone nofun rfl (by simp [hkey])
  rw [if_neg hkey] at h
  by_cases hkey : key = "sticky_modifier"
  · rw [if_pos hkey] at h
    obtain ⟨_, hcheck, h⟩ := JsonM.bind_eq_ok.mp h
    obtain ⟨members, hmembers, h⟩ := JsonM.bind_eq_ok.mp h
    obtain ⟨d₁, hloop, h⟩ := JsonM.bind_eq_ok.mp h
    obtain rfl := Option.some.inj (Except.ok.inj h)
    have hnone := checkType_eq_ok.mp hcheck
    obtain rfl := requiresObject_eq_ok.mp hmembers
    obtain ⟨htype, ⟨rfl, rfl⟩ | ⟨hne, hvalue⟩⟩ := readMembers_readStickyModifier hloop
    · exact .empty hnone hkey rfl
    · exact .typed hnone (by simp [htype]) (hvalue.trans htype.symm) (by simp [hne])
  rw [if_neg hkey] at h
  by_cases hkey : key = "software_function"
  · rw [if_pos hkey] at h
    obtain ⟨hnone, _, -, rfl⟩ := typed_of_bind h
    exact .typed hnone nofun rfl (by simp [hkey])
  rw [if_neg hkey] at h
  by_cases hkey : key = "description"
  · rw [if_pos hkey] at h
    obtain rfl := Option.some.inj (Except.ok.inj h)
    exact .described hkey
  rw [if_neg hkey] at h
  cases h

end EventDefinitionObject

end Karabiner
