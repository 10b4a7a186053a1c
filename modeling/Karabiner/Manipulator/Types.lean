import Karabiner.Manipulator.Environment
import Karabiner.ModifierFlagManager
import Mathlib.Data.Finset.Basic

/-!
# Definitions of a rule

`share/manipulator/types`: what a rule maps from and to.

A set of modifiers of the source is a `std::set`, which is iterated in the order of the
enumeration; the sets of modifier flags are iterated in the order of insertion here.
-/

namespace Karabiner

/-! ### Event definitions -/

/-- `event_definition::any_type`. -/
inductive AnyType
  | keyCode
  | consumerKeyCode
  | appleVendorKeyboardKeyCode
  | appleVendorTopCaseKeyCode
  | pointingButton
deriving DecidableEq, Repr

/-- `event_definition`: a type with the value that belongs to it. -/
inductive EventDefinition
  | none
  | momentarySwitchEvent (e : MomentarySwitchEvent)
  | any (type : AnyType)
  | shellCommand (command : String)
  | selectInputSource (specifiers : List InputSourceSpecifier)
  | setVariable (v : SetVariable)
  | setNotificationMessage (m : NotificationMessage)
  | mouseKey (m : MouseKey)
  | stickyModifier (m : ModifierFlag) (type : StickyModifierType)
  | softwareFunction (f : SoftwareFunction)
deriving DecidableEq, Repr

namespace EventDefinition

/-- `to_event`. -/
def toEvent : EventDefinition → Option Event
  | none => Option.none
  | momentarySwitchEvent e => some (.momentarySwitchEvent e)
  | any _ => Option.none
  | shellCommand command => some (.shellCommand command)
  | selectInputSource specifiers => some (.selectInputSource specifiers)
  | setVariable v => some (.setVariable v)
  | setNotificationMessage m => some (.setNotificationMessage m)
  | mouseKey m => some (.mouseKey m)
  | stickyModifier m type => some (.stickyModifier m type)
  | softwareFunction f => some (.softwareFunction f)

end EventDefinition

/-! ### Modifiers -/

/-- `modifier_definition::modifier`. -/
inductive Modifier
  | any
  | capsLock
  | command
  | control
  | fn
  | leftCommand
  | leftControl
  | leftOption
  | leftShift
  | option
  | rightCommand
  | rightControl
  | rightOption
  | rightShift
  | shift
  | end_
deriving DecidableEq, Repr

namespace Modifier

/-- The modifiers before `end_`, in the order of the enumeration. -/
def all : List Modifier :=
  [.any, .capsLock, .command, .control, .fn, .leftCommand, .leftControl, .leftOption, .leftShift,
    .option, .rightCommand, .rightControl, .rightOption, .rightShift, .shift]

/-- `get_modifier_flags`. -/
def getModifierFlags : Modifier → List ModifierFlag
  | .any => []
  | .capsLock => [.capsLock]
  | .command => [.leftCommand, .rightCommand]
  | .control => [.leftControl, .rightControl]
  | .fn => [.fn]
  | .leftCommand => [.leftCommand]
  | .leftControl => [.leftControl]
  | .leftOption => [.leftOption]
  | .leftShift => [.leftShift]
  | .option => [.leftOption, .rightOption]
  | .rightCommand => [.rightCommand]
  | .rightControl => [.rightControl]
  | .rightOption => [.rightOption]
  | .rightShift => [.rightShift]
  | .shift => [.leftShift, .rightShift]
  | .end_ => []

end Modifier

/-! ### What a rule maps to -/

/-- `to_event_definition`.  The conditions are its condition manager. -/
structure ToEventDefinition where
  eventDefinition : EventDefinition
  modifiers : Finset Modifier := ∅
  isLazy : Bool := false
  «repeat» : Bool := true
  halt : Bool := false
  holdDownMilliseconds : ℤ := 0
  conditions : List Condition := []

/-- `make_modifier_events`: the first modifier flag of each modifier. -/
def ToEventDefinition.makeModifierEvents (d : ToEventDefinition) : List MomentarySwitchEvent :=
  ((Modifier.all ++ [Modifier.end_]).filter (· ∈ d.modifiers)).filterMap fun m =>
    match m.getModifierFlags with
    | flag :: _ =>
      let e := MomentarySwitchEvent.ofModifierFlag flag
      if e.valid then some e else none
    | [] => none

/-- `make_modifier_events` makes valid switches. -/
theorem ToEventDefinition.valid_of_mem_makeModifierEvents (d : ToEventDefinition) :
    ∀ e ∈ d.makeModifierEvents, e.valid = true := by
  intro e he
  obtain ⟨m, -, hm⟩ := List.mem_filterMap.mp he
  split at hm
  · dsimp only at hm
    split_ifs at hm with hv
    cases hm
    exact hv
  · cases hm

/-! ### The modifiers of `from` -/

/-- `from_modifiers_definition`. -/
structure FromModifiersDefinition where
  mandatoryModifiers : Finset Modifier := ∅
  optionalModifiers : Finset Modifier := ∅

namespace FromModifiersDefinition

/-- The flags between `zero` and `end_`, in the order of the enumeration. -/
def modifierFlags : List ModifierFlag :=
  [.capsLock, .leftControl, .leftShift, .leftOption, .leftCommand, .rightControl, .rightShift,
    .rightOption, .rightCommand, .fn]

/-- `test_modifier`. -/
def testModifier (manager : ModifierFlagManager) (modifier : Modifier) : Bool × ModifierFlag :=
  if modifier = .any then (true, .zero)
  else
    match modifier.getModifierFlags.find? manager.isPressed with
    | some m => (true, m)
    | none => (false, .zero)

/-- The loop of `test_modifiers` over the mandatory modifiers. -/
def testMandatoryModifiers (d : FromModifiersDefinition) (manager : ModifierFlagManager) :
    List Modifier → List ModifierFlag → Option (List ModifierFlag)
  | [], flags => some flags
  | m :: ms, flags =>
    if m ∈ d.mandatoryModifiers then
      let (pressed, flag) := testModifier manager m
      if !pressed then none
      else
        d.testMandatoryModifiers manager ms
          (if flag ≠ .zero && flag ∉ flags then flags ++ [flag] else flags)
    else d.testMandatoryModifiers manager ms flags

/-- The flags that no mandatory or optional modifier stands for. -/
def extraModifierFlags (d : FromModifiersDefinition) : List ModifierFlag :=
  modifierFlags.filter fun flag =>
    !(Modifier.all.any fun m =>
      (m ∈ d.mandatoryModifiers || m ∈ d.optionalModifiers) && flag ∈ m.getModifierFlags)

/-- `test_modifiers`: the pressed flags of the mandatory modifiers. -/
def testModifiers (d : FromModifiersDefinition) (manager : ModifierFlagManager) :
    Option (List ModifierFlag) :=
  if .any ∈ d.mandatoryModifiers then some (modifierFlags.filter manager.isPressed)
  else
    match d.testMandatoryModifiers manager Modifier.all [] with
    | none => none
    | some flags =>
      if .any ∉ d.optionalModifiers && d.extraModifierFlags.any manager.isPressed then none
      else some flags

end FromModifiersDefinition

/-- `manipulate_result`. -/
inductive ManipulateResult
  | passed
  | manipulated
  | needsWaitUntilTimeStamp
deriving DecidableEq, Repr

end Karabiner
