import Karabiner.Manipulator.Basic.Balance
import Karabiner.Manipulator.Basic.Postings
import Karabiner.Manipulator.ManipulatorManagersConnector

/-!
# The virtual pointing device

`needs_virtual_hid_pointing`: whether a rule may post events of the pointing device, which is then
prepared by `device_grabber`.  `basic::needs_virtual_hid_pointing` looks through `to`,
`to_after_key_up`, `to_if_alone`, `to_if_held_down` and `to_delayed_action`.  It does not look
through `simultaneous_options.to_after_key_up`.

* `Basic.needsVirtualHidPointing_of_posts` — **a rule that posts a pointing event needs the
  device**, in every run in which no step posts a pointing event of
  `simultaneous_options.to_after_key_up` for a rule that has none in another list.
* `Basic.not_needsVirtualHidPointing_simultaneous` — a rule without such events elsewhere posts one.
-/

namespace Karabiner

open EventSender

/-! ### Pointing events -/

/-- A `pointing_button` or `mouse_key` event. -/
def Event.isPointing : Event → Bool
  | .momentarySwitchEvent e => e.pointingButton
  | .mouseKey _ => true
  | _ => false

/-- `to_event_definition::needs_virtual_hid_pointing`. -/
def ToEventDefinition.needsVirtualHidPointing (d : ToEventDefinition) : Bool :=
  match d.eventDefinition with
  | .momentarySwitchEvent e => e.pointingButton
  | .mouseKey _ => true
  | _ => false

/-- Some event definition of the list needs the device, as `to_if_held_down` asks. -/
def anyNeedsVirtualHidPointing (toEvents : List ToEventDefinition) : Bool :=
  toEvents.any ToEventDefinition.needsVirtualHidPointing

/-- `to_delayed_action::needs_virtual_hid_pointing`. -/
def ToDelayedAction.needsVirtualHidPointing (d : ToDelayedAction) : Bool :=
  [d.toIfInvoked, d.toIfCanceled].any anyNeedsVirtualHidPointing

/-- `basic::needs_virtual_hid_pointing`. -/
def BasicDefinition.needsVirtualHidPointing (d : BasicDefinition) : Bool :=
  [d.to_, d.toAfterKeyUp, d.toIfAlone].any anyNeedsVirtualHidPointing ||
    d.toIfHeldDown.any anyNeedsVirtualHidPointing ||
    d.toDelayedAction.any ToDelayedAction.needsVirtualHidPointing

/-- The lists that are looked through. -/
def BasicDefinition.checkedLists (d : BasicDefinition) : List (List ToEventDefinition) :=
  [d.to_, d.toAfterKeyUp, d.toIfAlone] ++ d.toIfHeldDown.toList ++
    d.toDelayedAction.toList.flatMap fun action => [action.toIfInvoked, action.toIfCanceled]

/-- `manipulator_manager::needs_virtual_hid_pointing`. -/
def ManipulatorManager.needsVirtualHidPointing (m : ManipulatorManager) : Bool :=
  m.manipulators.any fun slot => slot.basic.definition.needsVirtualHidPointing

/-- `manipulator_managers_connector::needs_virtual_hid_pointing`. -/
def ManipulatorManagersConnector.needsVirtualHidPointing [Exprtk]
    (m : ManipulatorManagersConnector) : Bool :=
  m.stages.any fun stage => stage.manager.needsVirtualHidPointing

/-- What `device_grabber` asks its devices before it prepares the virtual pointing device. -/
structure SeizableDevice where
  needsToSeizeDevice : Bool
  isPointingDevice : Bool
  isGamePad : Bool

/-- `device_grabber::needs_prepare_virtual_hid_pointing_device`. -/
def ManipulatorManagersConnector.needsPrepareVirtualHidPointingDevice [Exprtk]
    (m : ManipulatorManagersConnector) (devices : List SeizableDevice) : Bool :=
  (devices.any fun d => d.needsToSeizeDevice && (d.isPointingDevice || d.isGamePad)) ||
    m.needsVirtualHidPointing

/-! ### The lists of a rule that does not need the device -/

/-- An event definition that does not need the device has no pointing event. -/
theorem isPointing_of_toEvent {d : ToEventDefinition} {event : Event}
    (h : d.eventDefinition.toEvent = some event) :
    event.isPointing = d.needsVirtualHidPointing := by
  unfold ToEventDefinition.needsVirtualHidPointing
  cases hd : d.eventDefinition <;> rw [hd] at h <;> cases h <;> rfl

theorem allowsModifiers_isPointing : AllowsModifiers fun event => event.isPointing = false := by
  intro flag eventType
  cases flag <;> cases eventType <;> rfl

theorem allows_of_not_any (toEvents : List ToEventDefinition)
    (h : anyNeedsVirtualHidPointing toEvents = false) :
    Allows (fun event => event.isPointing = false) (fun _ => True) toEvents := by
  intro d hd
  refine ⟨trivial, fun event hevent => ?_⟩
  have hneeds : d.needsVirtualHidPointing = false :=
    Bool.eq_false_iff.mpr (List.any_eq_false.mp h d hd)
  exact (isPointing_of_toEvent hevent).trans hneeds

/-- A rule that does not need the device has no pointing event in a list that is looked through. -/
theorem BasicDefinition.not_any_of_mem_checkedLists {d : BasicDefinition}
    (h : d.needsVirtualHidPointing = false) :
    ∀ toEvents ∈ d.checkedLists, anyNeedsVirtualHidPointing toEvents = false := by
  simp only [needsVirtualHidPointing, List.any_cons, List.any_nil, Bool.or_false,
    Bool.or_eq_false_iff] at h
  obtain ⟨⟨⟨hto, hafter, halone⟩, hheld⟩, hdelayed⟩ := h
  intro toEvents hmem
  simp only [checkedLists, List.mem_append, List.mem_cons, List.not_mem_nil, or_false,
    Option.mem_toList, List.mem_flatMap] at hmem
  rcases hmem with ((rfl | rfl | rfl) | hmem) | ⟨action, haction, hmem⟩
  · exact hto
  · exact hafter
  · exact halone
  · rwa [Option.mem_def.mp hmem] at hheld
  · rw [Option.mem_def.mp haction] at hdelayed
    simp only [Option.any_some, ToDelayedAction.needsVirtualHidPointing, List.any_cons,
      List.any_nil, Bool.or_false, Bool.or_eq_false_iff] at hdelayed
    rcases hmem with rfl | rfl
    · exact hdelayed.1
    · exact hdelayed.2

/-- Every list but `simultaneous_options.to_after_key_up` is looked through. -/
theorem BasicDefinition.allowsLists_of_needsVirtualHidPointing {d : BasicDefinition}
    (h : d.needsVirtualHidPointing = false) :
    d.AllowsLists (fun event => event.isPointing = false) fun _ => True := by
  have hallows {toEvents : List ToEventDefinition} (hmem : toEvents ∈ d.checkedLists) :=
    allows_of_not_any toEvents (not_any_of_mem_checkedLists h toEvents hmem)
  refine ⟨hallows (by simp [checkedLists]), hallows (by simp [checkedLists]),
    hallows (by simp [checkedLists]), fun toEvents htoEvents => ?_, fun action haction => ⟨?_, ?_⟩⟩
  all_goals refine hallows ?_
  · simp [checkedLists, htoEvents]
  · simp [checkedLists, haction]
  · simp [checkedLists, haction]

/-! ### Runs -/

namespace Basic

variable [Exprtk] [SystemClock] [MachTimebase]

/-- The step posts `simultaneous_options.to_after_key_up`, which has an event definition that needs
the device, and the lists that are looked through have none. -/
def Input.PostsUnchecked (s : State) (i : Input) : Prop :=
  i.PostsSimultaneous (anyNeedsVirtualHidPointing · = true) s ∧
    ∀ toEvents ∈ s.basic.definition.checkedLists, anyNeedsVirtualHidPointing toEvents = false

/-- What a rule that does not need the device posts. -/
theorem isPointing_of_mem_postsOfRun {definition : BasicDefinition}
    (h : definition.needsVirtualHidPointing = false) (output : Output) {is : List Input}
    (hsteps : Machine.Steps step (fun s i => ¬i.PostsUnchecked s)
      (.initial definition output) is) :
    ∀ e ∈ postsOfRun definition output is, e.event.isPointing = false := by
  refine event_of_mem_postsOfRun allowsModifiers_isPointing rfl
    (BasicDefinition.allowsLists_of_needsVirtualHidPointing h) output ?_
  rw [Machine.steps_iff_forall] at hsteps ⊢
  intro before i after his hposts
  refine hsteps before i after his ⟨?_, ?_⟩
  · cases i with
    | manipulate front rest now =>
        refine ⟨hposts.1, by_contra fun hany => hposts.2 ?_⟩
        exact allows_of_not_any _ (Bool.eq_false_iff.mpr hany)
    | _ => exact hposts
  · rw [(run_spec definition output before).1]
    exact BasicDefinition.not_any_of_mem_checkedLists h

/-- **A rule that posts a pointing event needs the device**, and so nothing is posted while the
chain does not ask for it, as long as no step posts a pointing event of
`simultaneous_options.to_after_key_up` for a rule that has none in another list. -/
theorem needsVirtualHidPointing_of_posts :
    (∀ (definition : BasicDefinition) (output : Output) (is : List Input),
      Machine.Steps step (fun s i => ¬i.PostsUnchecked s) (.initial definition output) is →
        (∃ e ∈ postsOfRun definition output is, e.event.isPointing = true) →
          definition.needsVirtualHidPointing = true) ∧
    ∀ m : ManipulatorManagersConnector,
      (∀ devices, m.needsPrepareVirtualHidPointingDevice devices = false →
        m.needsVirtualHidPointing = false) ∧
      (m.needsVirtualHidPointing = false →
        ∀ stage ∈ m.stages, ∀ slot ∈ stage.manager.manipulators,
        ∀ (output : Output) (is : List Input),
          Machine.Steps step (fun s i => ¬i.PostsUnchecked s)
              (.initial slot.basic.definition output) is →
            ∀ e ∈ postsOfRun slot.basic.definition output is, e.event.isPointing = false) := by
  refine ⟨fun definition output is hsteps hposts => ?_, fun m => ⟨fun devices hdevices => ?_, ?_⟩⟩
  · by_contra hneeds
    obtain ⟨e, he, hpointing⟩ := hposts
    have hnot := isPointing_of_mem_postsOfRun (Bool.eq_false_iff.mpr hneeds) output hsteps e he
    rw [hpointing] at hnot
    cases hnot
  · exact (Bool.or_eq_false_iff.mp hdevices).2
  · intro hm stage hstage slot hslot output is hsteps
    have hmanager := List.any_eq_false.mp hm stage hstage
    have hslot := List.any_eq_false.mp (Bool.eq_false_iff.mpr hmanager) slot hslot
    exact isPointing_of_mem_postsOfRun (Bool.eq_false_iff.mpr hslot) output hsteps

omit [Exprtk] [SystemClock] [MachTimebase] in
/-- `a` is mapped to `button1`, and `button2` is in `simultaneous_options.to_after_key_up`: the
device is needed for the buttons that are posted. -/
theorem needsVirtualHidPointing_of_posts_buttons :
    ∃ (_ : Exprtk) (_ : SystemClock) (_ : MachTimebase),
      let definition : BasicDefinition :=
        { mapped (.momentarySwitchEvent ⟨⟨UsagePage.button, 1⟩⟩) with
          from_ :=
            { eventDefinitions := [.momentarySwitchEvent ⟨⟨UsagePage.keyboardOrKeypad, 4⟩⟩]
              simultaneousOptions.toAfterKeyUp :=
                [{ eventDefinition := .momentarySwitchEvent ⟨⟨UsagePage.button, 2⟩⟩ }] } }
      (∃ e ∈ postsOfRun definition ⟨{}, World.initial⟩ typedInputs, e.event.isPointing = true) ∧
        definition.needsVirtualHidPointing = true := by
  refine ⟨.singleVariable, ⟨fun _ => 0⟩, ⟨1, 1⟩, ?_⟩
  let _ : Exprtk := .singleVariable
  let _ : SystemClock := ⟨fun _ => 0⟩
  let _ : MachTimebase := ⟨1, 1⟩
  intro definition
  have hposts : ∃ e ∈ postsOfRun definition ⟨{}, World.initial⟩ typedInputs,
      e.event.isPointing = true := by
    decide
  refine ⟨hposts, needsVirtualHidPointing_of_posts.1 definition ⟨{}, World.initial⟩ typedInputs
    ?_ hposts⟩
  rw [Machine.steps_iff_forall]
  rintro before i after - ⟨-, hnone⟩
  rw [(run_spec definition _ before).1] at hnone
  exact absurd (hnone definition.to_ (by simp [BasicDefinition.checkedLists])) (by decide)

omit [Exprtk] [SystemClock] [MachTimebase] in
/-- The key `a` is mapped to `b`, and its key_up posts `button1` from
`simultaneous_options.to_after_key_up`. -/
def simultaneousPointing : BasicDefinition :=
  { mapped (.momentarySwitchEvent ⟨⟨UsagePage.keyboardOrKeypad, 5⟩⟩) with
    from_ :=
      { eventDefinitions := [.momentarySwitchEvent ⟨⟨UsagePage.keyboardOrKeypad, 4⟩⟩]
        simultaneousOptions.toAfterKeyUp :=
          [{ eventDefinition := .momentarySwitchEvent ⟨⟨UsagePage.button, 1⟩⟩ }] } }

omit [Exprtk] [SystemClock] [MachTimebase] in
/-- A rule that posts `button1` when its key is released, and does not need the device. -/
theorem not_needsVirtualHidPointing_simultaneous :
    ∃ (_ : Exprtk) (_ : SystemClock) (_ : MachTimebase),
      ¬∀ (definition : BasicDefinition) (output : Output) (is : List Input),
        (∃ e ∈ postsOfRun definition output is, e.event.isPointing = true) →
          definition.needsVirtualHidPointing = true := by
  refine ⟨.singleVariable, ⟨fun _ => 0⟩, ⟨1, 1⟩, fun h => ?_⟩
  have hneeds := h simultaneousPointing
    (@Output.mk .singleVariable {} (@World.initial .singleVariable)) (@typedInputs .singleVariable)
  revert hneeds
  decide

end Basic

end Karabiner
