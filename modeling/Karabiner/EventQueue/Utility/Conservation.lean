import Karabiner.EventQueue.Utility
import Karabiner.Library.Machine
import Mathlib.Algebra.BigOperators.Group.List.Basic
import Mathlib.Algebra.Ring.Int.Defs

/-!
# What `make_entries` makes of the HID values

`make_entries` holds back up to four components of a pointing motion.  Here what it holds back is
the list of the values behind the components (`Joined.group`), and what it emits is a switch entry
or the motion of a whole group (`Emission`).

* `makeEntries_eq` — `make_entries` is this machine, with the last group emitted at the end.
* `makeEntries_conserves` — **no value is lost or counted twice**: the switches, LEDs and d-pad
  changes are there in their order, and the motions are those of a partition of the axis values.
-/

namespace Karabiner

/-! ### The values of an axis -/

/-- The components of a pointing motion. -/
inductive Axis
  | x
  | y
  | verticalWheel
  | horizontalWheel
deriving DecidableEq, Repr

namespace MakeEntries

/-- The axis of a value.  A game pad has no axes x and y. -/
def axis (d : DeviceProperties) (v : HidValue) : Option Axis :=
  if v.conformsTo UsagePage.genericDesktop Usage.GenericDesktop.x && !d.isGamePad then some .x
  else if v.conformsTo UsagePage.genericDesktop Usage.GenericDesktop.y && !d.isGamePad then some .y
  else if v.conformsTo UsagePage.genericDesktop Usage.GenericDesktop.wheel then
    some .verticalWheel
  else if v.conformsTo UsagePage.consumer Usage.Consumer.acPan then some .horizontalWheel
  else none

/-- The adjusted value of a value on an axis. -/
def adjust (parameters : MakeEntriesParameters) (a : Axis) (v : HidValue) : ℤ :=
  match a with
  | .x | .y => adjustPointingMotionValue v parameters.pointingMotionXyMultiplier
  | .verticalWheel | .horizontalWheel =>
    adjustPointingMotionValue v parameters.pointingMotionWheelsMultiplier

/-- The component of a motion on an axis. -/
def component (m : PointingMotion) : Axis → ℤ
  | .x => m.x
  | .y => m.y
  | .verticalWheel => m.verticalWheel
  | .horizontalWheel => m.horizontalWheel

/-- The value of a group on an axis. -/
def valueOn (d : DeviceProperties) (group : List HidValue) (a : Axis) : Option HidValue :=
  group.find? fun v => axis d v = some a

/-- The motion of a group: on each axis the adjusted value of the group, or 0. -/
def motion (d : DeviceProperties) (parameters : MakeEntriesParameters) (group : List HidValue) :
    PointingMotion :=
  let component (a : Axis) : ℤ := ((valueOn d group a).map (adjust parameters a)).getD 0
  ⟨component .x, component .y, component .verticalWheel, component .horizontalWheel⟩

/-- The entry of a group, at the time of its last value. -/
def motionEntry (d : DeviceProperties) (parameters : MakeEntriesParameters)
    (group : List HidValue) : Entry :=
  MakeEntriesState.makeEntry d.deviceId ((group.getLast?.map HidValue.timeStamp).getD 0)
    (.pointingMotion (motion d parameters group)) .single .original

/-! ### The other values -/

/-- The value is a momentary switch. -/
def isSwitch (v : HidValue) : Bool :=
  (v.usagePage.bind fun usagePage => v.usage.map (MomentarySwitchEvent.target usagePage)).getD false

/-- The value is the caps lock LED. -/
def isCapsLockLed (v : HidValue) : Bool := v.conformsTo UsagePage.leds Usage.Led.capsLock

/-- The value is the hat switch of a game pad. -/
def isHatSwitch (d : DeviceProperties) (v : HidValue) : Bool :=
  d.isGamePad && v.conformsTo UsagePage.genericDesktop Usage.GenericDesktop.hatSwitch

/-- The entries of a value that is on no axis: one for a switch or the caps lock LED, and the d-pad
changes for a hat switch, which was in `direction` before. -/
def valueEntries (d : DeviceProperties) (direction : Direction) (v : HidValue) : List Entry :=
  if isSwitch v then
    [MakeEntriesState.makeEntry d.deviceId v.timeStamp
      (.momentarySwitchEvent ⟨⟨v.usagePage.getD 0, v.usage.getD 0⟩⟩)
      (if v.integerValue ≠ 0 then .keyDown else .keyUp) .original]
  else if isCapsLockLed v then
    [MakeEntriesState.makeEntry d.deviceId v.timeStamp
      (.capsLockStateChanged v.integerValue) .single
      .virtualEvent]
  else if isHatSwitch d v then
    (direction.toDpadEvents (.ofHatSwitchValue v.integerValue)).map fun pair =>
      MakeEntriesState.makeEntry d.deviceId v.timeStamp (.momentarySwitchEvent pair.1) pair.2
        .original
  else []

/-- The direction of the hat switch after a value. -/
def nextDirection (d : DeviceProperties) (direction : Direction) (v : HidValue) : Direction :=
  if isHatSwitch d v then .ofHatSwitchValue v.integerValue else direction

/-- The entries of all values that are on no axis, in the order of the values. -/
def switchEntries (d : DeviceProperties) : Direction → List HidValue → List Entry
  | _, [] => []
  | direction, v :: values =>
    valueEntries d direction v ++ switchEntries d (nextDirection d direction v) values

/-! ### The machine -/

/-- What is held back: the values of the pending motion, and the direction of the hat switch. -/
structure Joined where
  group : List HidValue := []
  direction : Direction := {}

/-- What is emitted. -/
inductive Emission
  | entry (e : Entry)
  | motion (group : List HidValue)

namespace Emission

/-- The entry that is emitted. -/
def toEntry (d : DeviceProperties) (parameters : MakeEntriesParameters) : Emission → Entry
  | entry e => e
  | motion group => motionEntry d parameters group

def getEntry : Emission → Option Entry
  | entry e => some e
  | motion _ => none

def getGroup : Emission → Option (List HidValue)
  | entry _ => none
  | motion group => some group

end Emission

/-- The group has a value on the axis already. -/
def Collides (d : DeviceProperties) (group : List HidValue) (a : Axis) : Prop :=
  a ∈ group.filterMap (axis d)

instance (d : DeviceProperties) (group : List HidValue) (a : Axis) :
    Decidable (Collides d group a) :=
  inferInstanceAs (Decidable (a ∈ group.filterMap (axis d)))

/-- Take one value: a second value on an axis emits the group. -/
def join (d : DeviceProperties) (s : Joined) (v : HidValue) : Joined × List Emission :=
  match axis d v with
  | some a =>
    if Collides d s.group a then ({ s with group := [v] }, [.motion s.group])
    else ({ s with group := s.group ++ [v] }, [])
  | none =>
    ({ s with direction := nextDirection d s.direction v },
      (valueEntries d s.direction v).map .entry)

/-- Emit what is left at the end. -/
def flush (s : Joined) : List Emission := if s.group.isEmpty then [] else [.motion s.group]

/-- The state after some values. -/
def joined (d : DeviceProperties) (s : Joined) (values : List HidValue) : Joined :=
  Machine.run (fun s v => (join d s v).1) s values

/-- What is emitted for some values, without the end. -/
def emitted (d : DeviceProperties) (s : Joined) (values : List HidValue) : List Emission :=
  Machine.outputs (join d) s values

/-! ### `make_entries` is this machine -/

/-- The pending component on an axis. -/
def pendingOn (s : MakeEntriesState) : Axis → Option ℤ
  | .x => s.pointingMotionX
  | .y => s.pointingMotionY
  | .verticalWheel => s.pointingMotionVerticalWheel
  | .horizontalWheel => s.pointingMotionHorizontalWheel

/-- Set the pending component on an axis. -/
def setOn (a : Axis) (value : ℤ) (s : MakeEntriesState) : MakeEntriesState :=
  match a with
  | .x => { s with pointingMotionX := some value }
  | .y => { s with pointingMotionY := some value }
  | .verticalWheel => { s with pointingMotionVerticalWheel := some value }
  | .horizontalWheel => { s with pointingMotionHorizontalWheel := some value }

/-- A pending value is set on its axis alone. -/
theorem pendingOn_setOn (a b : Axis) (value : ℤ) (s : MakeEntriesState) :
    pendingOn (setOn a value s) b = if b = a then some value else pendingOn s b := by
  cases a <;> cases b <;> rfl

@[simp] theorem result_setOn (a : Axis) (value : ℤ) (s : MakeEntriesState) :
    (setOn a value s).result = s.result := by
  cases a <;> rfl

@[simp] theorem lastDirection_setOn (a : Axis) (value : ℤ) (s : MakeEntriesState) :
    (setOn a value s).lastDirection = s.lastDirection := by
  cases a <;> rfl

@[simp] theorem pointingMotionTimeStamp_setOn (a : Axis) (value : ℤ) (s : MakeEntriesState) :
    (setOn a value s).pointingMotionTimeStamp = s.pointingMotionTimeStamp := by
  cases a <;> rfl

/-- A value conforms to its own usage. -/
theorem conformsTo_iff {v : HidValue} {usagePage usage : ℤ} :
    v.conformsTo usagePage usage ↔ v.usagePage = some usagePage ∧ v.usage = some usage := by
  simp [HidValue.conformsTo]

/-- The loop of `make_entries`, for a value on an axis. -/
theorem step_axis {d : DeviceProperties} {v : HidValue} {a : Axis} (h : axis d v = some a)
    (parameters : MakeEntriesParameters) (s : MakeEntriesState) :
    s.step d parameters v =
      s.joinPointingMotion d (pendingOn s a) v.timeStamp (setOn a (adjust parameters a v)) := by
  have htarget {usagePage usage : ℤ} (hconforms : v.conformsTo usagePage usage)
      (hfalse : MomentarySwitchEvent.target usagePage usage = false) :
      ∃ p u, v.usagePage = some p ∧ v.usage = some u ∧ MomentarySwitchEvent.target p u = false :=
    ⟨usagePage, usage, (conformsTo_iff.mp hconforms).1, (conformsTo_iff.mp hconforms).2, hfalse⟩
  unfold axis at h
  split_ifs at h with hx hy hwheel hpan <;> obtain rfl := Option.some.inj h
  · obtain ⟨p, u, hp, hu, hfalse⟩ := htarget (Bool.and_eq_true_iff.mp hx).1 (by decide)
    simp only [MakeEntriesState.step, hp, hu, hfalse, hx, if_true, Bool.false_eq_true, if_false]
    rfl
  · obtain ⟨p, u, hp, hu, hfalse⟩ := htarget (Bool.and_eq_true_iff.mp hy).1 (by decide)
    simp only [MakeEntriesState.step, hp, hu, hfalse, hx, hy, if_true, Bool.false_eq_true, if_false]
    rfl
  · obtain ⟨p, u, hp, hu, hfalse⟩ := htarget hwheel (by decide)
    simp only [MakeEntriesState.step, hp, hu, hfalse, hx, hy, hwheel, if_true, Bool.false_eq_true,
      if_false]
    rfl
  · obtain ⟨p, u, hp, hu, hfalse⟩ := htarget hpan (by decide)
    simp only [MakeEntriesState.step, hp, hu, hfalse, hx, hy, hwheel, hpan, if_true,
      Bool.false_eq_true, if_false]
    rfl

/-- A hat switch is neither a momentary switch nor the caps lock LED. -/
theorem of_isHatSwitch {d : DeviceProperties} {v : HidValue} (h : isHatSwitch d v) :
    isSwitch v = false ∧ isCapsLockLed v = false := by
  obtain ⟨hpage, husage⟩ := conformsTo_iff.mp (Bool.and_eq_true_iff.mp h).2
  constructor
  · rw [isSwitch, hpage, husage]
    decide
  · rw [isCapsLockLed, HidValue.conformsTo, hpage, husage]
    decide

/-- The loop of `make_entries`, for any other value. -/
theorem step_none {d : DeviceProperties} {v : HidValue} (h : axis d v = none)
    (parameters : MakeEntriesParameters) (s : MakeEntriesState) :
    s.step d parameters v =
      { s with
        result := s.result ++ valueEntries d s.lastDirection v
        lastDirection := nextDirection d s.lastDirection v } := by
  unfold axis at h
  split_ifs at h with hx hy hwheel hpan
  cases hp : v.usagePage with
  | none =>
      simp [MakeEntriesState.step, hp, valueEntries, nextDirection, isSwitch, isCapsLockLed,
        isHatSwitch, HidValue.conformsTo]
  | some p =>
      cases hu : v.usage with
      | none =>
          simp [MakeEntriesState.step, hp, hu, valueEntries, nextDirection, isSwitch, isCapsLockLed,
            isHatSwitch, HidValue.conformsTo]
      | some u =>
          have hswitch : MomentarySwitchEvent.target p u = isSwitch v := by
            simp [isSwitch, hp, hu]
          have hled : v.conformsTo UsagePage.leds Usage.Led.capsLock = isCapsLockLed v := rfl
          have hhat : (d.isGamePad && v.conformsTo UsagePage.genericDesktop
              Usage.GenericDesktop.hatSwitch) = isHatSwitch d v := rfl
          simp only [MakeEntriesState.step, hp, hu, hx, hy, hwheel, hpan, hswitch, hled, hhat,
            Bool.false_eq_true, if_false, valueEntries, nextDirection, Option.getD_some]
          by_cases h : isHatSwitch d v
          · simp [h, of_isHatSwitch h]
          · split_ifs <;> simp

/-! ### The simulation -/

/-- The local variables of `make_entries` are those of the group that is held back. -/
structure Represents (d : DeviceProperties) (parameters : MakeEntriesParameters)
    (s : MakeEntriesState) (j : Joined) : Prop where
  direction : s.lastDirection = j.direction
  timeStamp : s.pointingMotionTimeStamp = j.group.getLast?.map HidValue.timeStamp
  pending : ∀ a, pendingOn s a = (valueOn d j.group a).map (adjust parameters a)

/-- An axis has a value if one of the group is for it. -/
theorem valueOn_isSome_iff {d : DeviceProperties} {group : List HidValue} {a : Axis} :
    (valueOn d group a).isSome ↔ Collides d group a := by
  simp [valueOn, Collides]

theorem valueOn_append (d : DeviceProperties) (group : List HidValue) (v : HidValue) (b : Axis) :
    valueOn d (group ++ [v]) b =
      (valueOn d group b).or (if axis d v = some b then some v else none) := by
  rw [valueOn, List.find?_append]
  by_cases h : axis d v = some b <;> simp [valueOn, h]

/-- `emplace_back_pointing_motion_event` emits the group. -/
theorem Represents.flush {d : DeviceProperties} {parameters : MakeEntriesParameters}
    {s : MakeEntriesState} {j : Joined} (h : Represents d parameters s j) :
    (s.emplaceBackPointingMotionEvent d).result =
        s.result ++ (flush j).map (Emission.toEntry d parameters) ∧
      Represents d parameters (s.emplaceBackPointingMotionEvent d) { j with group := [] } := by
  have hmotion : (⟨s.pointingMotionX.getD 0, s.pointingMotionY.getD 0,
      s.pointingMotionVerticalWheel.getD 0, s.pointingMotionHorizontalWheel.getD 0⟩ :
        PointingMotion) = motion d parameters j.group := by
    have hx := h.pending .x
    have hy := h.pending .y
    have hv := h.pending .verticalWheel
    have hh := h.pending .horizontalWheel
    simp only [pendingOn] at hx hy hv hh
    simp only [motion, hx, hy, hv, hh]
  cases htime : s.pointingMotionTimeStamp with
  | none =>
      have hnil : j.group = [] := by simpa [htime] using h.timeStamp.symm
      simp only [MakeEntriesState.emplaceBackPointingMotionEvent, htime, MakeEntries.flush, hnil]
      exact ⟨by simp, h.direction, by simp [htime], hnil ▸ h.pending⟩
  | some t =>
      have hlast := h.timeStamp.symm
      rw [htime] at hlast
      have hne : j.group ≠ [] := by
        rintro hnil
        simp [hnil] at hlast
      simp only [MakeEntriesState.emplaceBackPointingMotionEvent, htime, MakeEntries.flush, hmotion]
      refine ⟨?_, h.direction, rfl, fun a => ?_⟩
      · simp [hne, Emission.toEntry, motionEntry, hlast]
      · cases a <;> rfl

/-- A value joins a group that has none on its axis. -/
theorem Represents.join {d : DeviceProperties} {parameters : MakeEntriesParameters}
    {s : MakeEntriesState} {j : Joined} (h : Represents d parameters s j) {v : HidValue} {a : Axis}
    (haxis : axis d v = some a) (hnew : ¬ Collides d j.group a) :
    Represents d parameters
      (setOn a (adjust parameters a v) { s with pointingMotionTimeStamp := some v.timeStamp })
      { j with group := j.group ++ [v] } := by
  refine ⟨by simpa using h.direction, by simp, fun b => ?_⟩
  rw [pendingOn_setOn, valueOn_append, haxis]
  by_cases hb : b = a
  · have hnone : valueOn d j.group a = none := by simpa [← valueOn_isSome_iff] using hnew
    simp [hb, hnone]
  · have hne : some a ≠ some b := fun heq => hb (Option.some.inj heq).symm
    rw [if_neg hb, if_neg hne, Option.or_none, ← h.pending b]
    cases b <;> rfl

/-- **One round of the loop** is one step of the machine. -/
theorem Represents.step {d : DeviceProperties} {parameters : MakeEntriesParameters}
    {s : MakeEntriesState} {j : Joined} (h : Represents d parameters s j) (v : HidValue) :
    (s.step d parameters v).result =
        s.result ++ (MakeEntries.join d j v).2.map (Emission.toEntry d parameters) ∧
      Represents d parameters (s.step d parameters v) (MakeEntries.join d j v).1 := by
  cases haxis : axis d v with
  | none =>
      rw [step_none haxis, h.direction]
      simp only [MakeEntries.join, haxis]
      exact ⟨by simp [Function.comp_def, Emission.toEntry], rfl, h.timeStamp, h.pending⟩
  | some a =>
      have hpending : (pendingOn s a).isSome ↔ Collides d j.group a := by
        rw [h.pending, Option.isSome_map, valueOn_isSome_iff]
      rw [step_axis haxis]
      simp only [MakeEntries.join, haxis, MakeEntriesState.joinPointingMotion, hpending]
      split_ifs with hcollides
      · -- The group is emitted first, and the value joins an empty one.
        have hne : j.group ≠ [] := by
          rintro hnil
          simp [Collides, hnil] at hcollides
        obtain ⟨hresult, hempty⟩ := h.flush
        refine ⟨?_, hempty.join haxis (by simp [Collides])⟩
        simpa [MakeEntries.flush, hne] using hresult
      · exact ⟨by simp, h.join haxis hcollides⟩

/-- What is emitted for some values, with the end. -/
def emissions (d : DeviceProperties) (s : Joined) (values : List HidValue) : List Emission :=
  emitted d s values ++ flush (joined d s values)

@[simp] theorem emissions_nil (d : DeviceProperties) (s : Joined) :
    emissions d s [] = flush s := rfl

theorem emissions_cons (d : DeviceProperties) (s : Joined) (v : HidValue)
    (values : List HidValue) :
    emissions d s (v :: values) =
      (join d s v).2 ++ emissions d (join d s v).1 values := by
  rw [emissions, emitted, Machine.outputs_cons, List.append_assoc]
  rfl

/-- **`make_entries` is this machine**, with the last group emitted at the end. -/
theorem makeEntries_eq (d : DeviceProperties) (hidValues : List HidValue)
    (parameters : MakeEntriesParameters) (direction : Direction) :
    (makeEntries d hidValues parameters direction).1 =
      (emissions d ⟨[], direction⟩ hidValues).map (Emission.toEntry d parameters) := by
  have hloop : ∀ (s : MakeEntriesState) (j : Joined), Represents d parameters s j →
      (hidValues.foldl (MakeEntriesState.step d parameters) s).result =
          s.result ++ (emitted d j hidValues).map (Emission.toEntry d parameters) ∧
        Represents d parameters (hidValues.foldl (MakeEntriesState.step d parameters) s)
          (joined d j hidValues) := by
    induction hidValues with
    | nil => exact fun s j h => ⟨by simp [emitted], h⟩
    | cons v values ih =>
        intro s j h
        obtain ⟨hresult, hstep⟩ := h.step v
        obtain ⟨hrest, hend⟩ := ih _ _ hstep
        refine ⟨?_, hend⟩
        rw [List.foldl_cons, hrest, hresult, List.append_assoc, ← List.map_append]
        rfl
  obtain ⟨hresult, hend⟩ := hloop { lastDirection := direction } ⟨[], direction⟩
    ⟨rfl, rfl, fun a => by cases a <;> rfl⟩
  rw [makeEntries, hend.flush.1, hresult, emissions, List.map_append, List.nil_append]

/-! ### Conservation -/

/-- A value on an axis is none of the others. -/
theorem of_axis {d : DeviceProperties} {v : HidValue} {a : Axis} (h : axis d v = some a) :
    isSwitch v = false ∧ isCapsLockLed v = false ∧ isHatSwitch d v = false := by
  have hconforms {usagePage usage : ℤ} (hconforms : v.conformsTo usagePage usage)
      (htarget : MomentarySwitchEvent.target usagePage usage = false)
      (hled : (usagePage, usage) ≠ (UsagePage.leds, Usage.Led.capsLock))
      (hhat : (usagePage, usage) ≠ (UsagePage.genericDesktop, Usage.GenericDesktop.hatSwitch)) :
      isSwitch v = false ∧ isCapsLockLed v = false ∧ isHatSwitch d v = false := by
    obtain ⟨hpage, husage⟩ := conformsTo_iff.mp hconforms
    refine ⟨by simpa [isSwitch, hpage, husage] using htarget, ?_, ?_⟩
    · simpa [isCapsLockLed, HidValue.conformsTo, hpage, husage] using hled
    · simp only [isHatSwitch, HidValue.conformsTo, hpage, husage]
      simp only [ne_eq, Prod.mk.injEq, not_and] at hhat
      simpa using fun _ => hhat
  unfold axis at h
  split_ifs at h with hx hy hwheel hpan
  · exact hconforms (Bool.and_eq_true_iff.mp hx).1 (by decide) (by decide) (by decide)
  · exact hconforms (Bool.and_eq_true_iff.mp hy).1 (by decide) (by decide) (by decide)
  · exact hconforms hwheel (by decide) (by decide) (by decide)
  · exact hconforms hpan (by decide) (by decide) (by decide)

/-- The switches are emitted in their order, whatever is held back. -/
theorem filterMap_getEntry_emissions (d : DeviceProperties) (s : Joined)
    (values : List HidValue) :
    (emissions d s values).filterMap Emission.getEntry = switchEntries d s.direction values := by
  induction values generalizing s with
  | nil =>
      rw [emissions_nil, flush]
      split_ifs <;> rfl
  | cons v values ih =>
      rw [emissions_cons, List.filterMap_append, ih, switchEntries]
      cases haxis : axis d v with
      | none => simp [join, haxis, List.filterMap_map, Function.comp_def, Emission.getEntry]
      | some a =>
          obtain ⟨hswitch, hled, hhat⟩ := of_axis haxis
          have hentries : valueEntries d s.direction v = [] := by
            simp [valueEntries, hswitch, hled, hhat]
          have hdirection : nextDirection d s.direction v = s.direction := by
            simp [nextDirection, hhat]
          rw [hentries, hdirection]
          simp only [join, haxis]
          split_ifs <;> rfl

/-- The groups make up the values on an axis, in their order. -/
theorem flatten_getGroup_emissions (d : DeviceProperties) (s : Joined) (values : List HidValue) :
    ((emissions d s values).filterMap Emission.getGroup).flatten =
      s.group ++ values.filter fun v => (axis d v).isSome := by
  induction values generalizing s with
  | nil =>
      rw [emissions_nil, flush]
      split_ifs with hnil
      · simp [List.isEmpty_iff.mp hnil]
      · simp [Emission.getGroup]
  | cons v values ih =>
      rw [emissions_cons, List.filterMap_append, List.flatten_append, ih]
      cases haxis : axis d v with
      | none => simp [join, haxis, List.filterMap_map, Function.comp_def, Emission.getGroup]
      | some a =>
          simp only [join, haxis]
          split_ifs <;> simp [haxis, Emission.getGroup]

/-- A group that may be held back has at most one value on each axis. -/
def OnePerAxis (d : DeviceProperties) (group : List HidValue) : Prop :=
  (group.filterMap (axis d)).Nodup

/-- Joining a value keeps at most one for each axis. -/
theorem OnePerAxis.join {d : DeviceProperties} {s : Joined} (h : OnePerAxis d s.group)
    (v : HidValue) : OnePerAxis d (MakeEntries.join d s v).1.group := by
  unfold MakeEntries.join
  split
  · rename_i a haxis
    split_ifs with hcollides
    · simp [OnePerAxis, haxis]
    · rw [OnePerAxis, List.filterMap_append, List.nodup_append]
      refine ⟨h, by simp [haxis], ?_⟩
      rintro b hb c hc rfl
      obtain rfl : b = a := by simpa [haxis] using hc
      exact hcollides hb
  · exact h

/-- The groups that are emitted have at most one value for each axis. -/
theorem onePerAxis_of_mem_emissions {d : DeviceProperties} {s : Joined}
    (h : OnePerAxis d s.group) (values : List HidValue) {group : List HidValue}
    (hgroup : .motion group ∈ emissions d s values) : group ≠ [] ∧ OnePerAxis d group := by
  induction values generalizing s with
  | nil =>
      rw [emissions_nil, flush] at hgroup
      split_ifs at hgroup with hnil
      · cases hgroup
      · obtain rfl := Emission.motion.inj (List.mem_singleton.mp hgroup)
        exact ⟨hnil ∘ List.isEmpty_iff.mpr, h⟩
  | cons v values ih =>
      rw [emissions_cons, List.mem_append] at hgroup
      rcases hgroup with hgroup | hgroup
      · unfold MakeEntries.join at hgroup
        split at hgroup
        · split_ifs at hgroup with hcollides
          · obtain rfl := Emission.motion.inj (List.mem_singleton.mp hgroup)
            refine ⟨?_, h⟩
            rintro hnil
            simp [Collides, hnil] at hcollides
          · cases hgroup
        · simp at hgroup
      · exact ih (h.join v) hgroup

/-- The component of a motion is the sum over the values of its group, of which there is at most
one. -/
theorem component_motion {d : DeviceProperties} {group : List HidValue} (h : OnePerAxis d group)
    (parameters : MakeEntriesParameters) (a : Axis) :
    component (motion d parameters group) a =
      ((group.filter fun v => axis d v = some a).map (adjust parameters a)).sum := by
  have hvalue : component (motion d parameters group) a =
      ((valueOn d group a).map (adjust parameters a)).getD 0 := by
    cases a <;> rfl
  rw [hvalue, valueOn]
  clear hvalue
  induction group with
  | nil => rfl
  | cons v group ih =>
      by_cases haxis : axis d v = some a
      · rw [OnePerAxis, List.filterMap_cons_some haxis, List.nodup_cons] at h
        have hnil : (group.filter fun v => axis d v = some a) = [] := by
          refine List.filter_eq_nil_iff.mpr fun w hw hwa => h.1 ?_
          exact List.mem_filterMap.mpr ⟨w, hw, by simpa using hwa⟩
        simp [haxis, hnil]
      · have hrest : OnePerAxis d group :=
          List.Nodup.sublist (List.Sublist.filterMap _ (List.sublist_cons_self v group)) h
        simpa [haxis] using ih hrest

/-- The entries of a switch are no motions. -/
theorem getPointingMotion_of_mem_valueEntries {d : DeviceProperties} {direction : Direction}
    {v : HidValue} {e : Entry} (h : e ∈ valueEntries d direction v) :
    e.event.getPointingMotion = none := by
  unfold valueEntries at h
  split at h
  · obtain rfl := List.mem_singleton.mp h
    rfl
  · split at h
    · obtain rfl := List.mem_singleton.mp h
      rfl
    · split at h
      · obtain ⟨pair, -, rfl⟩ := List.mem_map.mp h
        rfl
      · cases h

/-- Every switch entry comes from one of the values. -/
theorem exists_of_mem_switchEntries {d : DeviceProperties} {direction : Direction}
    {values : List HidValue} {e : Entry} (h : e ∈ switchEntries d direction values) :
    ∃ v ∈ values, ∃ direction', e ∈ valueEntries d direction' v := by
  induction values generalizing direction with
  | nil => cases h
  | cons v values ih =>
      rcases List.mem_append.mp h with h | h
      · exact ⟨v, List.mem_cons_self, direction, h⟩
      · obtain ⟨w, hw, hentry⟩ := ih h
        exact ⟨w, List.mem_cons_of_mem _ hw, hentry⟩

/-- Emissions are told apart by the entries they become. -/
theorem filter_toEntry {l : List Emission}
    (h : ∀ e ∈ l.filterMap Emission.getEntry, e.event.getPointingMotion = none)
    (d : DeviceProperties) (parameters : MakeEntriesParameters) :
    ((l.map (Emission.toEntry d parameters)).filter fun e => e.event.getPointingMotion.isNone) =
        l.filterMap Emission.getEntry ∧
      ((l.map (Emission.toEntry d parameters)).filter fun e => e.event.getPointingMotion.isSome) =
        (l.filterMap Emission.getGroup).map (motionEntry d parameters) := by
  induction l with
  | nil => exact ⟨rfl, rfl⟩
  | cons x l ih =>
      cases x with
      | entry e =>
          obtain ⟨he, hl⟩ := List.forall_mem_cons.mp h
          obtain ⟨hentries, hgroups⟩ := ih hl
          constructor
          · simpa [Emission.toEntry, Emission.getEntry, he] using hentries
          · rw [List.filterMap_cons_none rfl, ← hgroups]
            simp [Emission.toEntry, he]
      | motion group =>
          obtain ⟨hentries, hgroups⟩ := ih h
          constructor
          · exact hentries
          · exact congrArg (motionEntry d parameters group :: ·) hgroups

/-- The sum over the groups is the sum over the values. -/
theorem sum_component_motion {d : DeviceProperties} (parameters : MakeEntriesParameters)
    {groups : List (List HidValue)} (h : ∀ group ∈ groups, OnePerAxis d group) (a : Axis) :
    (groups.map fun group => component (motion d parameters group) a).sum =
      ((groups.flatten.filter fun v => axis d v = some a).map (adjust parameters a)).sum := by
  induction groups with
  | nil => rfl
  | cons group groups ih =>
      obtain ⟨hgroup, hgroups⟩ := List.forall_mem_cons.mp h
      rw [List.map_cons, List.sum_cons, List.flatten_cons, List.filter_append, List.map_append,
        List.sum_append, ih hgroups, component_motion hgroup]

end MakeEntries

open MakeEntries

/-- **`make_entries` conserves the HID input.**  The entries other than motions are those of the
switches, LEDs and hat switches, in the order of the values.  The motions are those of groups that
partition the values on an axis, in their order, with at most one value on each axis; so on each
axis the motions add up to the adjusted values. -/
theorem makeEntries_conserves (d : DeviceProperties) (hidValues : List HidValue)
    (parameters : MakeEntriesParameters) (direction : Direction) :
    let entries := (makeEntries d hidValues parameters direction).1
    (entries.filter fun e => e.event.getPointingMotion.isNone) =
        switchEntries d direction hidValues ∧
      ∃ groups : List (List HidValue),
        (entries.filter fun e => e.event.getPointingMotion.isSome) =
            groups.map (motionEntry d parameters) ∧
          groups.flatten = (hidValues.filter fun v => (axis d v).isSome) ∧
          (∀ group ∈ groups, group ≠ [] ∧ OnePerAxis d group) ∧
          ∀ a, ((entries.filterMap fun e => e.event.getPointingMotion).map (component · a)).sum =
            ((hidValues.filter fun v => axis d v = some a).map (adjust parameters a)).sum := by
  intro entries
  have hswitches := filterMap_getEntry_emissions d ⟨[], direction⟩ hidValues
  have hnone : ∀ e ∈ (emissions d ⟨[], direction⟩ hidValues).filterMap Emission.getEntry,
      e.event.getPointingMotion = none := by
    intro e he
    obtain ⟨v, -, direction', he⟩ := exists_of_mem_switchEntries (hswitches ▸ he)
    exact getPointingMotion_of_mem_valueEntries he
  obtain ⟨hentries, hmotions⟩ := filter_toEntry hnone d parameters
  have hflatten := flatten_getGroup_emissions d ⟨[], direction⟩ hidValues
  have hgroups : ∀ group ∈ (emissions d ⟨[], direction⟩ hidValues).filterMap Emission.getGroup,
      group ≠ [] ∧ OnePerAxis d group := by
    intro group hgroup
    obtain ⟨x, hx, hxgroup⟩ := List.mem_filterMap.mp hgroup
    cases x with
    | entry e => cases hxgroup
    | motion group =>
        obtain rfl := Option.some.inj hxgroup
        exact onePerAxis_of_mem_emissions (by simp [OnePerAxis]) hidValues hx
  have hmade : entries =
      (emissions d ⟨[], direction⟩ hidValues).map (Emission.toEntry d parameters) :=
    makeEntries_eq d hidValues parameters direction
  rw [← hmade] at hentries hmotions
  refine ⟨hentries.trans hswitches, _, hmotions, hflatten, hgroups, fun a => ?_⟩
  have hgetMotion : (entries.filterMap fun e => e.event.getPointingMotion) =
      ((emissions d ⟨[], direction⟩ hidValues).filterMap Emission.getGroup).map
        (motion d parameters) := by
    have hfilter : (entries.filterMap fun e => e.event.getPointingMotion) =
        (entries.filter fun e => e.event.getPointingMotion.isSome).filterMap
          fun e => e.event.getPointingMotion := by
      rw [List.filterMap_filter]
      refine List.filterMap_congr fun e _ => ?_
      cases e.event.getPointingMotion <;> rfl
    rw [hfilter, hmotions, List.filterMap_map]
    exact congrFun (List.filterMap_eq_map (f := motion d parameters)) _
  have hfilter : (hidValues.filter fun v => axis d v = some a) =
      ((hidValues.filter fun v => (axis d v).isSome).filter fun v => axis d v = some a) := by
    rw [List.filter_filter]
    refine List.filter_congr fun v _ => ?_
    cases axis d v <;> simp
  rw [hgetMotion, List.map_map, hfilter, ← List.nil_append (hidValues.filter _), ← hflatten]
  exact sum_component_motion parameters (fun group hgroup => (hgroups group hgroup).2) a

end Karabiner
