import Karabiner.EventQueue.Utility
import Karabiner.Library.Machine
import Karabiner.Library.Toggles
import Mathlib.Data.List.DropRight
import Mathlib.Logic.Function.Basic

/-!
# The hat switch

`share/hat_switch_convert.hpp`: a hat switch has one of eight directions, or none, and every value
that it sends is turned into the changes of four keys.  One converter serves all devices; a device
that is terminated is erased, and all of them are when the grabber ends.  Erasing a device sends
nothing: a key that it holds is not released, and is pressed again by the next value for it.

* `lastDirection_run` — the last direction of a device follows from its own values since it was
  erased.
* `sent_run` — since it was last erased, **every key of a device is pressed and released in turn**,
  and it is held exactly while it belongs to that direction, whatever the other devices do.
-/

namespace Karabiner

/-- The keys of a hat switch. -/
def dpadKeys : List MomentarySwitchEvent := [
  ⟨⟨UsagePage.genericDesktop, Usage.GenericDesktop.dpadUp⟩⟩,
  ⟨⟨UsagePage.genericDesktop, Usage.GenericDesktop.dpadDown⟩⟩,
  ⟨⟨UsagePage.genericDesktop, Usage.GenericDesktop.dpadRight⟩⟩,
  ⟨⟨UsagePage.genericDesktop, Usage.GenericDesktop.dpadLeft⟩⟩]

/-- The direction includes that of a key. -/
def Direction.holds (d : Direction) (event : MomentarySwitchEvent) : Bool :=
  ([d.up, d.down, d.right, d.left].zip dpadKeys).contains (true, event)

/-- What is sent of one key. -/
def typesOf (event : MomentarySwitchEvent) (l : List (MomentarySwitchEvent × EventType)) :
    List EventType :=
  l.filterMap fun pair => if pair.1 = event then some pair.2 else none

@[simp] theorem typesOf_append (event : MomentarySwitchEvent)
    (l m : List (MomentarySwitchEvent × EventType)) :
    typesOf event (l ++ m) = typesOf event l ++ typesOf event m :=
  List.filterMap_append

/-- Only the keys of the hat switch are sent. -/
theorem mem_dpadKeys_of_mem_toDpadEvents {last current : Direction}
    {pair : MomentarySwitchEvent × EventType} (h : pair ∈ last.toDpadEvents current) :
    pair.1 ∈ dpadKeys := by
  obtain ⟨⟨before, after, usage⟩, hmem, hpair⟩ := List.mem_filterMap.mp h
  have husage : (⟨⟨UsagePage.genericDesktop, usage⟩⟩ : MomentarySwitchEvent) ∈ dpadKeys := by
    simp only [List.mem_cons, Prod.mk.injEq, List.not_mem_nil, or_false] at hmem
    rcases hmem with ⟨-, -, rfl⟩ | ⟨-, -, rfl⟩ | ⟨-, -, rfl⟩ | ⟨-, -, rfl⟩ <;> decide
  dsimp only at hpair
  split_ifs at hpair <;> obtain rfl := Option.some.inj hpair <;> exact husage

/-- A change of direction sends of a key what has changed about it. -/
theorem typesOf_toDpadEvents (event : MomentarySwitchEvent) (last current : Direction) :
    typesOf event (last.toDpadEvents current) =
      Toggles.changes .keyDown .keyUp (last.holds event) (current.holds event) := by
  by_cases hevent : event ∈ dpadKeys
  · obtain ⟨up, down, right, left⟩ := last
    obtain ⟨up', down', right', left'⟩ := current
    simp only [dpadKeys, List.mem_cons, List.not_mem_nil, or_false] at hevent
    rcases hevent with rfl | rfl | rfl | rfl
    all_goals
      revert up down right left up' down' right' left'
      decide
  · have hholds (d : Direction) : d.holds event = false := by
      by_contra hd
      have hmem : (true, event) ∈ [d.up, d.down, d.right, d.left].zip dpadKeys :=
        List.contains_iff_mem.mp (Bool.of_not_eq_false hd)
      exact hevent (List.of_mem_zip hmem).2
    rw [hholds, hholds]
    refine List.filterMap_eq_nil_iff.mpr fun pair hpair => if_neg ?_
    rintro rfl
    exact hevent (mem_dpadKeys_of_mem_toDpadEvents hpair)

/-! ### The converter -/

/-- `hat_switch_converter`. -/
structure HatSwitchConverter where
  lastDirections : DeviceId → Option Direction := fun _ => none

namespace HatSwitchConverter

/-- The last direction of a device, which is none if the device is not known. -/
def lastDirection (c : HatSwitchConverter) (deviceId : DeviceId) : Direction :=
  (c.lastDirections deviceId).getD {}

/-- `to_dpad_events`. -/
def toDpadEvents (deviceId : DeviceId) (hatSwitchValue : ℤ) (c : HatSwitchConverter) :
    HatSwitchConverter × List (MomentarySwitchEvent × EventType) :=
  let currentDirection := Direction.ofHatSwitchValue hatSwitchValue
  let result := (c.lastDirection deviceId).toDpadEvents currentDirection
  ({ lastDirections := Function.update c.lastDirections deviceId (some currentDirection) }, result)

/-- `erase_device`. -/
def eraseDevice (deviceId : DeviceId) (c : HatSwitchConverter) : HatSwitchConverter where
  lastDirections := Function.update c.lastDirections deviceId none

/-- `clear`. -/
def clear (_ : HatSwitchConverter) : HatSwitchConverter where
  lastDirections := fun _ => none

/-- What happens. -/
inductive Input
  /-- A value of `make_entries`. -/
  | value (deviceId : DeviceId) (hatSwitchValue : ℤ)
  /-- `device_terminated`. -/
  | eraseDevice (deviceId : DeviceId)
  /-- The end of the grabber. -/
  | clear
deriving DecidableEq, Repr

/-- One step, with what it sends for which device. -/
def step (c : HatSwitchConverter) :
    Input → HatSwitchConverter × List (DeviceId × MomentarySwitchEvent × EventType)
  | .value deviceId hatSwitchValue =>
    let (c, result) := c.toDpadEvents deviceId hatSwitchValue
    (c, result.map fun pair => (deviceId, pair))
  | .eraseDevice deviceId => (c.eraseDevice deviceId, [])
  | .clear => (c.clear, [])

/-- The converter after a run. -/
abbrev run (is : List Input) : HatSwitchConverter := Machine.run (fun c i => (step c i).1) {} is

/-- What a run has sent for a device. -/
def sent (deviceId : DeviceId) (is : List Input) : List (MomentarySwitchEvent × EventType) :=
  (Machine.outputs step {} is).filterMap fun p => if p.1 = deviceId then some p.2 else none

namespace Input

/-- An input that erases a device. -/
def erases (deviceId : DeviceId) : Input → Bool
  | .value _ _ => false
  | .eraseDevice d => d = deviceId
  | .clear => true

/-- The direction of a device after an input, given the direction before it. -/
def direction (deviceId : DeviceId) (last : Direction) : Input → Direction
  | .value d hatSwitchValue => if d = deviceId then .ofHatSwitchValue hatSwitchValue else last
  | .eraseDevice d => if d = deviceId then {} else last
  | .clear => {}

theorem direction_of_erases {deviceId : DeviceId} {i : Input} (h : i.erases deviceId = true)
    (last : Direction) : i.direction deviceId last = {} := by
  cases i with
  | value d hatSwitchValue => cases h
  | eraseDevice d => exact if_pos (of_decide_eq_true h)
  | clear => rfl

end Input

/-- The direction that the inputs leave a device in. -/
def directionAfter (deviceId : DeviceId) (is : List Input) : Direction :=
  is.foldl (fun last i => i.direction deviceId last) {}

theorem lastDirection_step (c : HatSwitchConverter) (i : Input) (deviceId : DeviceId) :
    (step c i).1.lastDirection deviceId = i.direction deviceId (c.lastDirection deviceId) := by
  cases i with
  | value d hatSwitchValue =>
      by_cases hd : deviceId = d <;>
        simp [step, toDpadEvents, lastDirection, Input.direction, hd, eq_comm (a := d)]
  | eraseDevice d =>
      by_cases hd : deviceId = d <;>
        simp [step, eraseDevice, lastDirection, Input.direction, hd, eq_comm (a := d)]
  | clear => rfl

theorem lastDirection_run (is : List Input) (deviceId : DeviceId) :
    (run is).lastDirection deviceId = directionAfter deviceId is := by
  induction is using List.reverseRecOn with
  | nil => rfl
  | append_singleton is i ih =>
      have hstep : run (is ++ [i]) = (step (run is) i).1 := Machine.run_concat _ _ _ _
      rw [hstep, lastDirection_step, ih, directionAfter, directionAfter, List.foldl_concat]

/-- A value of a device sends what has changed about its direction. -/
theorem sent_concat_value (deviceId : DeviceId) (is : List Input) (hatSwitchValue : ℤ) :
    sent deviceId (is ++ [.value deviceId hatSwitchValue]) =
      sent deviceId is ++
        (directionAfter deviceId is).toDpadEvents (.ofHatSwitchValue hatSwitchValue) := by
  rw [sent, Machine.outputs_concat, List.filterMap_append, ← lastDirection_run]
  refine congrArg (sent deviceId is ++ ·) ?_
  show ((toDpadEvents deviceId hatSwitchValue (run is)).2.map
    fun pair => (deviceId, pair)).filterMap _ = _
  rw [List.filterMap_map]
  refine Eq.trans (List.filterMap_congr fun pair _ => ?_) List.filterMap_some
  exact if_pos rfl

/-- Nothing else sends anything for it, not even erasing the device. -/
theorem sent_concat_of_ne {deviceId : DeviceId} {i : Input}
    (h : ∀ hatSwitchValue, i ≠ .value deviceId hatSwitchValue) (is : List Input) :
    sent deviceId (is ++ [i]) = sent deviceId is := by
  rw [sent, Machine.outputs_concat, List.filterMap_append]
  refine Eq.trans (congrArg (sent deviceId is ++ ·) ?_) (List.append_nil _)
  cases i with
  | value d hatSwitchValue =>
      refine List.filterMap_eq_nil_iff.mpr fun p hp => if_neg ?_
      obtain ⟨pair, -, rfl⟩ := List.mem_map.mp hp
      rintro rfl
      exact h hatSwitchValue rfl
  | eraseDevice d => rfl
  | clear => rfl

/-- The inputs until a device was last erased. -/
def untilErased (deviceId : DeviceId) (is : List Input) : List Input :=
  is.rdropWhile fun i => !i.erases deviceId

theorem holds_none (event : MomentarySwitchEvent) : ({} : Direction).holds event = false := by
  simp [Direction.holds, dpadKeys]

/-- **Since the device was last erased, every key is pressed and released in turn**, beginning with
a press, and held exactly while it belongs to the direction that the device was last in.  Erasing a
device sends nothing. -/
theorem sent_run (is : List Input) (deviceId : DeviceId) (event : MomentarySwitchEvent) :
    (∃ recent, sent deviceId is = sent deviceId (untilErased deviceId is) ++ recent ∧
      Toggles .keyDown .keyUp ((directionAfter deviceId is).holds event)
        (typesOf event recent)) ∧
    sent deviceId (is ++ [.eraseDevice deviceId]) = sent deviceId is ∧
    sent deviceId (is ++ [.clear]) = sent deviceId is := by
  refine ⟨?_, sent_concat_of_ne (by rintro _ ⟨⟩) is,
    sent_concat_of_ne (by rintro _ ⟨⟩) is⟩
  induction is using List.reverseRecOn with
  | nil =>
      refine ⟨[], rfl, ?_⟩
      show Toggles EventType.keyDown .keyUp (({} : Direction).holds event) []
      rw [holds_none]
      exact .nil
  | append_singleton is i ih =>
      obtain ⟨recent, hsent, htoggles⟩ := ih
      have hdirection : directionAfter deviceId (is ++ [i]) =
          i.direction deviceId (directionAfter deviceId is) := List.foldl_concat ..
      rw [hdirection]
      by_cases herases : i.erases deviceId = true
      · -- a new segment begins
        have huntil : untilErased deviceId (is ++ [i]) = is ++ [i] :=
          List.rdropWhile_concat_neg _ _ _ (by simp [herases])
        refine ⟨[], by rw [huntil, List.append_nil], ?_⟩
        rw [i.direction_of_erases herases, holds_none]
        exact .nil
      · have huntil : untilErased deviceId (is ++ [i]) = untilErased deviceId is :=
          List.rdropWhile_concat_pos _ _ _ (by simp [herases])
        rw [huntil]
        cases i with
        | value d hatSwitchValue =>
            by_cases hd : d = deviceId
            · subst hd
              rw [sent_concat_value, hsent, List.append_assoc, Input.direction, if_pos rfl]
              refine ⟨_, rfl, ?_⟩
              rw [typesOf_append, typesOf_toDpadEvents]
              exact htoggles.change _
            · rw [sent_concat_of_ne (by rintro _ ⟨rfl, -⟩; exact hd rfl), Input.direction,
                if_neg hd]
              exact ⟨recent, hsent, htoggles⟩
        | eraseDevice d =>
            have hd : d ≠ deviceId := fun hd => herases (decide_eq_true hd)
            rw [sent_concat_of_ne (by rintro _ ⟨⟩), Input.direction, if_neg hd]
            exact ⟨recent, hsent, htoggles⟩
        | clear => exact absurd rfl herases

/-- A key that is held when its device is erased is pressed twice. -/
example : typesOf ⟨⟨UsagePage.genericDesktop, Usage.GenericDesktop.dpadUp⟩⟩
    (sent 1 [.value 1 0, .eraseDevice 1, .value 1 0]) = [.keyDown, .keyDown] := by decide

end HatSwitchConverter

end Karabiner
