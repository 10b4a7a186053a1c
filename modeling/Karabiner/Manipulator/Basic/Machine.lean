import Karabiner.Library.Machine
import Karabiner.Manipulator.Basic.Presses

/-!
# One basic manipulator as a machine

The manager that calls a manipulator and the clock that fires its timers are up to the input of the
machine.  An input is arbitrary: any entry with any rest of the input queue, any timer at any time,
and any change of the output queue between two steps.
-/

namespace Karabiner

namespace Basic

variable [Exprtk]

/-- What may happen to a manipulator. -/
inductive Input
  | manipulate (front : Entry) (rest : List Entry) (now : AbsoluteTime)
  | deviceUngrabbed (deviceId : DeviceId)
  | pointingDeviceEventFromEventTap (front : Entry)
  | setValidity (validity : Validity)
  | fireHeldDown (heldDownId : ℕ)
  | fireDelayedAction (delayedActionId : ℕ)
  | outside (output : Output)

/-- A manipulator and its output queue. -/
structure State where
  basic : Basic
  output : Output

/-- A new manipulator. -/
def State.initial (definition : BasicDefinition) (output : Output) : State :=
  ⟨{ definition := definition }, output⟩

variable [SystemClock] [MachTimebase]

/-- One step of a manipulator. -/
def step (s : State) : Input → State
  | .manipulate front rest now =>
    let r := s.basic.manipulate front rest s.output now
    ⟨r.basic, r.output⟩
  | .deviceUngrabbed deviceId => { s with basic := s.basic.handleDeviceUngrabbedEvent deviceId }
  | .pointingDeviceEventFromEventTap front =>
    { s with basic := s.basic.handlePointingDeviceEventFromEventTap front }
  | .setValidity validity => { s with basic.validity := validity }
  | .fireHeldDown heldDownId =>
    let (basic, output) := s.basic.fireHeldDown heldDownId s.output
    ⟨basic, output⟩
  | .fireDelayedAction delayedActionId =>
    let (basic, output) := s.basic.fireDelayedAction delayedActionId s.output
    ⟨basic, output⟩
  | .outside output => { s with output := output }

/-- A step keeps the definition, and the manipulator well-formed. -/
theorem step_spec {s : State} (hwf : s.basic.WellFormed) (i : Input) :
    (step s i).basic.definition = s.basic.definition ∧ (step s i).basic.WellFormed := by
  have hsame {b : Basic} (h : SameHeld s.basic b) :
      b.definition = s.basic.definition ∧ b.WellFormed := ⟨h.definition, h.wellFormed hwf⟩
  cases i with
  | manipulate front rest now =>
      cases manipulate_spec hwf front rest s.output now with
      | passed _ _ held => exact hsame held
      | waits _ _ held => exact hsame held
      | captured fromEvents _ _ adds _ _ _ _ collected =>
          refine ⟨adds.definition, adds.wellFormed hwf fun fe hfe => ?_⟩
          obtain ⟨e, ⟨_, _, _, _, htest, _⟩, rfl⟩ := (collected fe).mp hfe
          exact htest
      | released _ _ _ _ _ _ wellFormed definition => exact ⟨definition, wellFormed⟩
  | deviceUngrabbed deviceId => exact ⟨rfl, wellFormed_handleDeviceUngrabbedEvent hwf deviceId⟩
  | pointingDeviceEventFromEventTap front =>
      exact hsame (s.basic.sameHeld_unsetAloneIfNeeded front.originalEvent front.eventType)
  | setValidity validity => exact ⟨rfl, hwf.nodup, hwf.lt, hwf.matches_⟩
  | fireHeldDown id => exact hsame (s.basic.sameHeld_fireHeldDown id s.output)
  | fireDelayedAction id => exact hsame (s.basic.sameHeld_fireDelayedAction id s.output)
  | outside output => exact ⟨rfl, hwf⟩

theorem run_spec (definition : BasicDefinition) (output : Output) (is : List Input) :
    (Machine.run step (.initial definition output) is).basic.definition = definition ∧
      (Machine.run step (.initial definition output) is).basic.WellFormed := by
  refine Machine.run_invariant
    (fun (s : State) i (h : s.basic.definition = definition ∧ s.basic.WellFormed) => ?_)
    ⟨rfl, List.nodup_nil, by simp [State.initial], by simp [State.initial]⟩ is
  obtain ⟨hdefinition, hwf⟩ := step_spec h.2 i
  exact ⟨hdefinition.trans h.1, hwf⟩

end Basic

end Karabiner
