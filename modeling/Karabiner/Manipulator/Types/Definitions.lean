import Karabiner.Manipulator.Basic
import Karabiner.Manipulator.Basic.FromEventDefinitionJson
import Karabiner.Manipulator.Conditions

/-!
# From what is read to what is run

The readers make objects with the members of the source's classes; the manipulators run on
definitions, in which an event definition cannot lack its value.  The one object without a
definition is that of a `to` with an empty `sticky_modifier`, whose `to_event` throws.

* `ToEventDefinitionObject.isSome_definition_iff` — **which accepted `to` have a definition.**
-/

namespace Karabiner

open JsonUtility

namespace EventDefinitionObject

/-- The definition of a well-formed object. -/
def definition (d : EventDefinitionObject) : Option EventDefinition :=
  match d.type, d.value with
  | .none, .monostate => some .none
  | .momentarySwitchEvent, .momentarySwitchEvent e => some (.momentarySwitchEvent e)
  | .any, .any type => some (.any type)
  | .shellCommand, .string command => some (.shellCommand command)
  | .selectInputSource, .specifiers specifiers => some (.selectInputSource specifiers)
  | .setVariable, .setVariable v => some (.setVariable v)
  | .setNotificationMessage, .notificationMessage m => some (.setNotificationMessage m)
  | .mouseKey, .mouseKey m => some (.mouseKey m)
  | .stickyModifier, .stickyModifier m type => some (.stickyModifier m type)
  | .softwareFunction, .softwareFunction f => some (.softwareFunction f)
  | _, _ => none

@[simp] theorem definition_object (e : EventDefinition) : e.object.definition = some e := by
  cases e <;> rfl

/-- A definition is that of the object. -/
theorem definition_eq_some_iff {d : EventDefinitionObject} {e : EventDefinition} :
    d.definition = some e ↔ e.object = d := by
  constructor
  · obtain ⟨type, value⟩ := d
    intro h
    unfold definition at h
    split at h <;> cases h <;> simp_all [EventDefinition.object]
  · rintro rfl
    exact definition_object e

theorem isSome_definition_iff {d : EventDefinitionObject} :
    d.definition.isSome = true ↔ d.WellFormed := by
  rw [Option.isSome_iff_exists, wellFormed_iff_exists_object]
  constructor
  · rintro ⟨e, he⟩
    obtain rfl := definition_eq_some_iff.mp he
    exact ⟨e, rfl, by cases e <;> rfl⟩
  · rintro ⟨e, rfl, -⟩
    exact ⟨e, definition_object e⟩

end EventDefinitionObject

section

variable [NlohmannJson] [CoreConfiguration.NaturalSort] [SharedPointers] [RegexSearch] [Exprtk]

namespace ToEventDefinitionObject

/-- The definition that `to` has, with its conditions. -/
def definition (d : ToEventDefinitionObject) : Option ToEventDefinition :=
  d.eventDefinition.definition.map fun eventDefinition =>
    { eventDefinition
      modifiers := d.modifiers
      isLazy := d.isLazy
      «repeat» := d.repeat
      halt := d.halt
      holdDownMilliseconds := d.holdDownMilliseconds
      conditions := d.conditions.map ConditionDefinition.condition }

/-- **Which accepted `to` have a definition**: all but those with an empty `sticky_modifier`. -/
theorem isSome_definition_iff [Regex] {allocate : String → ℕ} {json : Json}
    {d : ToEventDefinitionObject} (h : fromJson allocate json = .ok d) :
    d.definition.isSome = true ↔
      ∀ members, json = .object members →
        ¬EventDefinitionObject.HasEmptyStickyModifier members := by
  rw [definition, Option.isSome_map, EventDefinitionObject.isSome_definition_iff, wellFormed_iff h]

end ToEventDefinitionObject

/-- The options that `from` has. -/
def SimultaneousOptionsObject.definition (o : SimultaneousOptionsObject) :
    Option SimultaneousOptions :=
  (o.toAfterKeyUp.mapM ToEventDefinitionObject.definition).map fun toAfterKeyUp =>
    { detectKeyDownUninterruptedly := o.detectKeyDownUninterruptedly
      keyDownOrder := o.keyDownOrder
      keyUpOrder := o.keyUpOrder
      keyUpWhen := o.keyUpWhen
      toAfterKeyUp }

/-- The definition that `from` has. -/
def FromEventDefinitionObject.definition (d : FromEventDefinitionObject) :
    Option FromEventDefinition := do
  let eventDefinitions ← d.eventDefinitions.mapM EventDefinitionObject.definition
  let simultaneousOptions ← d.simultaneousOptions.definition
  return { eventDefinitions, fromModifiersDefinition := d.fromModifiersDefinition,
           simultaneousOptions }

end

end Karabiner
