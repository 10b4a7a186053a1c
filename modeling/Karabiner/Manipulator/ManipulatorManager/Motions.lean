import Karabiner.EventQueue.SortEvents
import Karabiner.Manipulator.Basic.Postings
import Karabiner.Manipulator.ManipulatorManager.Kinds

/-!
# Motions on their way through a manager

Nothing but a `mouse_basic` that takes a motion, and the copy of the front entry, puts a motion into
the output queue: no event that a rule maps to is one, and `sort_events` moves keys only.

* `KindsConnection.motions_manipulate` — a call whose front entry is no motion leaves the motions of
  both queues alone.
* `KindsConnection.motions_of_treats` — what a call hands on in place of a motion.
-/

namespace Karabiner

open EventSender

/-! ### The motions of a queue -/

/-- The motion of an entry that has not been consumed. -/
def Entry.motion (e : Entry) : Option PointingMotion :=
  if e.validity = .valid then e.event.getPointingMotion else none

/-- The motions of some entries, in their order. -/
def motionsOf (entries : List Entry) : List PointingMotion := entries.filterMap Entry.motion

theorem motionsOf_append (entries entries' : List Entry) :
    motionsOf (entries ++ entries') = motionsOf entries ++ motionsOf entries' :=
  List.filterMap_append

theorem motionsOf_eq_nil {entries : List Entry}
    (h : ∀ e ∈ entries, e.event.getPointingMotion = none) : motionsOf entries = [] :=
  List.filterMap_eq_nil_iff.mpr fun e he => by rw [Entry.motion, h e he, ite_self]

theorem Entry.motion_of_invalid {e : Entry} (h : e.validity = .invalid) : e.motion = none :=
  if_neg (by simp [h])

/-- An entry with a motion. -/
theorem Entry.motion_eq_some_iff {e : Entry} {motion : PointingMotion} :
    e.motion = some motion ↔ e.validity = .valid ∧ e.event = .pointingMotion motion := by
  unfold Entry.motion
  cases e.event <;> simp [Event.getPointingMotion]

variable [Exprtk] [SystemClock]

omit [Exprtk] [SystemClock] in
/-- An event that is no motion. -/
def Event.IsMotionless (e : Event) : Prop := e.getPointingMotion = Option.none

omit [Exprtk] [SystemClock] in
/-- Modifier events are no motions. -/
theorem allowsModifiers_isMotionless : AllowsModifiers Event.IsMotionless := by
  intro flag eventType
  cases flag <;> cases eventType <;> rfl

omit [Exprtk] [SystemClock] in
/-- No event that a rule maps to is a motion. -/
theorem allows_isMotionless (toEvents : List ToEventDefinition) :
    Allows Event.IsMotionless (fun _ => True) toEvents := by
  intro d _
  refine ⟨trivial, fun event hevent => ?_⟩
  cases hd : d.eventDefinition <;> rw [hd] at hevent <;> cases hevent <;> rfl

omit [Exprtk] [SystemClock] in
theorem BasicDefinition.allowsLists_isMotionless (d : BasicDefinition) :
    d.AllowsLists Event.IsMotionless fun _ => True :=
  ⟨allows_isMotionless _, allows_isMotionless _, allows_isMotionless _,
    fun _ _ => allows_isMotionless _, fun _ _ => ⟨allows_isMotionless _, allows_isMotionless _⟩⟩

variable [MachTimebase]

namespace Basic

/-- **A rule posts no motion**, and leaves none to the key_up. -/
theorem motionsOf_manipulate {b : Basic} (h : Deferred Event.IsMotionless b) (front : Entry)
    (rest : List Entry) (o : Output) (now : AbsoluteTime) :
    Deferred Event.IsMotionless (b.manipulate front rest o now).basic ∧
      motionsOf (b.manipulate front rest o now).output.queue.events =
        motionsOf o.queue.events := by
  have hsimultaneous : b.PostsSimultaneous front → Allows Event.IsMotionless (fun _ => True)
      b.definition.from_.simultaneousOptions.toAfterKeyUp := fun _ => allows_isMotionless _
  have happends := appends_manipulate allowsModifiers_isMotionless h
    b.definition.allowsLists_isMotionless rfl hsimultaneous rest o now
  obtain ⟨new, hnew, hmotionless⟩ := happends.appended
  refine ⟨happends.deferred, ?_⟩
  rw [hnew, motionsOf_append, motionsOf_eq_nil hmotionless, List.append_nil]

/-- It makes no motion of another entry. -/
theorem motion_manipulate (b : Basic) {front : Entry} (h : front.motion = none)
    (rest : List Entry) (o : Output) (now : AbsoluteTime) :
    (b.manipulate front rest o now).front.motion = none := by
  have hcases := b.manipulates_manipulate front rest o now
  generalize b.observe front o = observed at hcases
  generalize b.manipulate front rest o now = r at hcases
  cases hcases with
  | passed hdelayed =>
      obtain ⟨d, rfl⟩ := exists_inputDelay hdelayed
      exact h
  | waits => exact h
  | captured => exact Entry.motion_of_invalid rfl
  | released => exact Entry.motion_of_invalid rfl

end Basic

omit [MachTimebase] in
/-- Nothing but a motion is taken. -/
theorem MouseBasic.motionsOf_manipulate (m : MouseBasic) {front : Entry}
    (hfront : front.motion = none) (o : Output) :
    motionsOf (m.manipulate front o).2.2.queue.events = motionsOf o.queue.events ∧
      (m.manipulate front o).2.1.motion = none := by
  unfold manipulate
  cases hvalidity : front.validity with
  | invalid => exact ⟨rfl, hfront⟩
  | valid =>
      rw [if_neg (by decide)]
      cases m.validity with
      | invalid => exact ⟨rfl, hfront⟩
      | valid =>
          rw [if_neg (by decide)]
          obtain ⟨fulfilled, env, w⟩ :=
            isFulfilled m.conditions front o.queue.manipulatorEnvironment o.world
          cases fulfilled with
          | false => exact ⟨rfl, hfront⟩
          | true =>
              cases hevent : front.event with
              | pointingMotion motion =>
                  rw [Entry.motion_eq_some_iff.mpr ⟨hvalidity, hevent⟩] at hfront
                  cases hfront
              | _ => exact ⟨rfl, hfront⟩

namespace Manipulator

omit [SystemClock] [MachTimebase] in
/-- The manipulator has left no motion to a key_up. -/
def Motionless : Manipulator → Prop
  | .basic b => Basic.Deferred Event.IsMotionless b
  | .mouseBasic _ => True

/-- Manipulation keeps a manipulator motionless. -/
theorem motionless_manipulate {m : Manipulator} (h : m.Motionless) (front : Entry)
    (rest : List Entry) (o : Output) (now : AbsoluteTime) :
    (m.manipulate front rest o now).manipulator.Motionless := by
  cases m with
  | basic b => exact (Basic.motionsOf_manipulate h front rest o now).1
  | mouseBasic m => trivial

/-- **Without a motion in front, no motion is posted.** -/
theorem motionsOf_manipulate {m : Manipulator} (h : m.Motionless) {front : Entry}
    (hfront : front.motion = none) (rest : List Entry) (o : Output) (now : AbsoluteTime) :
    motionsOf (m.manipulate front rest o now).output.queue.events = motionsOf o.queue.events ∧
      (m.manipulate front rest o now).front.motion = none := by
  cases m with
  | basic b =>
      exact ⟨(Basic.motionsOf_manipulate h front rest o now).2,
        b.motion_manipulate hfront rest o now⟩
  | mouseBasic m =>
      exact m.motionsOf_manipulate hfront o

theorem motionless_manipulateAll (rest : List Entry) (now : AbsoluteTime) {ms : List Manipulator}
    (h : ∀ m ∈ ms, m.Motionless) (front : Entry) (o : Output) :
    ∀ m ∈ (manipulateAll rest now ms front o).manipulators, m.Motionless := by
  induction ms generalizing front o with
  | nil => exact h
  | cons m ms ih =>
      obtain ⟨hm, hms⟩ := List.forall_mem_cons.mp h
      have hhead := motionless_manipulate hm front rest o now
      unfold manipulateAll
      dsimp only
      split_ifs
      · exact List.forall_mem_cons.mpr ⟨hhead, hms⟩
      · exact List.forall_mem_cons.mpr ⟨hhead, ih hms _ _⟩

end Manipulator

namespace KindsConnection

/-! ### The connection -/

omit [SystemClock] [MachTimebase] in
/-- No manipulator has left a motion to a key_up. -/
def Motionless (c : KindsConnection) : Prop := ∀ m ∈ c.manipulators, m.Motionless

omit [Exprtk] [SystemClock] [MachTimebase] in
/-- A function that keeps each manipulator motionless keeps all of them so. -/
theorem motionless_map {ms : List Manipulator} (h : ∀ m ∈ ms, m.Motionless)
    {f : Manipulator → Manipulator} (hf : ∀ m : Manipulator, m.Motionless → (f m).Motionless) :
    ∀ m ∈ ms.map f, m.Motionless := by
  intro m hm
  obtain ⟨m₀, hm₀, rfl⟩ := List.mem_map.mp hm
  exact hf m₀ (h m₀ hm₀)

/-- Handling an entry keeps the manipulators motionless. -/
theorem motionless_handleFront {c : KindsConnection} (h : c.Motionless) (front : Entry)
    (rest : List Entry) (now : AbsoluteTime) :
    ∀ m ∈ (c.handleFront front rest now).manipulators, m.Motionless := by
  unfold handleFront
  split
  case h_2 =>
    refine motionless_map h fun m hm => ?_
    cases m with
    | basic b =>
        exact (Basic.appends_handleDeviceUngrabbedEvent hm front.deviceId c.output).deferred
    | mouseBasic m => trivial
  case h_3 =>
    refine motionless_map h fun m hm => ?_
    cases m with
    | basic b =>
        exact (Basic.appends_unsetAloneIfNeeded hm front.originalEvent front.eventType
          c.output).deferred
    | mouseBasic m => trivial
  all_goals
    first
    | exact h
    | split_ifs
      · exact h
      · exact Manipulator.motionless_manipulateAll rest now h front c.output

omit [Exprtk] [SystemClock] [MachTimebase] in
theorem motionless_removeInvalidManipulators {ms : List Manipulator}
    (h : ∀ m ∈ ms, m.Motionless) : ∀ m ∈ removeInvalidManipulators ms, m.Motionless :=
  fun m hm => h m (List.mem_of_mem_filter hm)

theorem Motionless.step {c : KindsConnection} (h : c.Motionless) (i : Input) :
    (c.step i).Motionless := by
  cases i with
  | arrive e => exact h
  | manipulate now reorder =>
      show (c.manipulate now reorder).Motionless
      unfold manipulate Motionless
      split
      · exact motionless_removeInvalidManipulators h
      · next front rest _ =>
          have hpass := motionless_handleFront h front rest now
          dsimp only
          split_ifs
          · exact motionless_removeInvalidManipulators hpass
          · exact hpass
  | update definitions =>
      refine List.forall_mem_append.mpr ⟨motionless_removeInvalidManipulators
        (motionless_map h fun m hm => ?_), fun m hm => ?_⟩
      · cases m <;> exact hm
      · obtain ⟨d, -, rfl⟩ := List.mem_map.mp hm
        cases d with
        | basic d => exact List.forall_mem_nil _
        | mouseBasic d conditions => trivial
  | outside output => exact h

/-- The motions that a step puts into the output queue. -/
def handedOn (c : KindsConnection) : Input → List PointingMotion
  | .outside _ => []
  | i => (motionsOf (c.step i).output.queue.events).drop (motionsOf c.output.queue.events).length

/-- What a step hands on is what it adds behind the motions that are there. -/
theorem handedOn_eq {c : KindsConnection} {i : Input} {new : List PointingMotion}
    (houtside : ∀ o, i ≠ .outside o) (h : motionsOf (c.step i).output.queue.events =
      motionsOf c.output.queue.events ++ new) : c.handedOn i = new := by
  have hdrop : (motionsOf (c.step i).output.queue.events).drop
      (motionsOf c.output.queue.events).length = new := by
    rw [h, List.drop_left]
  cases i with
  | outside o => exact absurd rfl (houtside o)
  | _ => exact hdrop

/-- One step with the motions that it hands on. -/
def stepMotions (c : KindsConnection) (i : Input) : KindsConnection × List PointingMotion :=
  (c.step i, c.handedOn i)

end KindsConnection

end Karabiner
