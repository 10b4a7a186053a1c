import Karabiner.Manipulator.Basic.DelayedAction
import Karabiner.Manipulator.Basic.Postings
import Karabiner.Manipulator.ManipulatorManager.Pairing
import Karabiner.Manipulator.ManipulatorManager.Reload

/-!
# The time order of the output queue

A manipulation posts its entries one time unit or more apart, from the time stamp of its front entry
on, and then increases the delay of the output queue by one less than it has used.  So whatever is
pushed for the same or a later front entry comes after them.  The delay goes back to zero only with
an empty queue.

* `AppendsInOrder` — entries are appended in time order, between the time stamp of the front entry
  with the old delay and that with the new one.
* `TimeOrdered` — the invariant of a connection.
* `Connection.run_timeOrder` — **the entries of the output queue are in time order**, at every
  moment, and none is later than an entry that has arrived, with the delay of the queue.
-/

namespace Karabiner

open EventSender

/-- The time stamps of the entries never go backwards. -/
def InTimeOrder (entries : List Entry) : Prop :=
  entries.Pairwise fun e e' => e.eventTimeStamp.timeStamp ≤ e'.eventTimeStamp.timeStamp

/-- A rule without timers whose hold down times are not negative. -/
structure BasicDefinition.KeepsTimeOrder (d : BasicDefinition) : Prop where
  toIfHeldDown : d.toIfHeldDown = none
  toDelayedAction : d.toDelayedAction = none
  holdDownMilliseconds :
    ∀ toEvents ∈ [d.to_, d.toAfterKeyUp, d.toIfAlone, d.from_.simultaneousOptions.toAfterKeyUp],
      ∀ e ∈ toEvents, 0 ≤ e.holdDownMilliseconds

/-- Nothing is asked of the events of such a rule. -/
theorem BasicDefinition.KeepsTimeOrder.allows {d : BasicDefinition} (h : d.KeepsTimeOrder)
    {toEvents : List ToEventDefinition}
    (hmem : toEvents ∈
      [d.to_, d.toAfterKeyUp, d.toIfAlone, d.from_.simultaneousOptions.toAfterKeyUp]) :
    Allows (fun _ => True) (0 ≤ ·) toEvents :=
  fun e he => ⟨h.holdDownMilliseconds toEvents hmem e he, fun _ _ => trivial⟩

variable [Exprtk]

/-! ### Entries that are appended in time order -/

/-- Entries are appended in time order, no earlier than the time stamp with the delay of the first
queue and no later than the time stamp with that of the second. -/
structure AppendsInOrder (timeStamp : AbsoluteTime) (o o' : Output) : Prop where
  delay_le : o.queue.timeStampDelay ≤ o'.queue.timeStampDelay
  appended : ∃ new, o'.queue.events = o.queue.events ++ new ∧ InTimeOrder new ∧
    ∀ e ∈ new, timeStamp + o.queue.timeStampDelay ≤ e.eventTimeStamp.timeStamp ∧
      e.eventTimeStamp.timeStamp ≤ timeStamp + o'.queue.timeStampDelay

namespace AppendsInOrder

variable {timeStamp : AbsoluteTime} {o o' o'' : Output}

theorem of_sameEntries (events : o'.queue.events = o.queue.events)
    (timeStampDelay : o'.queue.timeStampDelay = o.queue.timeStampDelay) :
    AppendsInOrder timeStamp o o' :=
  ⟨timeStampDelay.ge, [], by simp [events], List.Pairwise.nil, by simp⟩

theorem trans (h : AppendsInOrder timeStamp o o') (h' : AppendsInOrder timeStamp o' o'') :
    AppendsInOrder timeStamp o o'' := by
  obtain ⟨new, hnew, hsorted, hbounds⟩ := h.appended
  obtain ⟨new', hnew', hsorted', hbounds'⟩ := h'.appended
  refine ⟨h.delay_le.trans h'.delay_le, new ++ new', ?_, ?_, fun e he => ?_⟩
  · rw [hnew', hnew, List.append_assoc]
  · refine List.pairwise_append.mpr ⟨hsorted, hsorted', fun e he e' he' => ?_⟩
    exact (hbounds e he).2.trans (hbounds' e' he').1
  · rcases List.mem_append.mp he with he | he
    · exact ⟨(hbounds e he).1, (hbounds e he).2.trans (add_le_add_right h'.delay_le _)⟩
    · exact ⟨(add_le_add_right h.delay_le _).trans (hbounds' e he).1, (hbounds' e he).2⟩

/-- Pushing an entry. -/
theorem emplaceBackEntry [SystemClock] (o : Output) (e : Entry) :
    AppendsInOrder e.eventTimeStamp.timeStamp o (o.emplaceBackEntry e) := by
  refine ⟨le_rfl, [o.queue.delay e], rfl, List.pairwise_singleton _ _, fun e' he' => ?_⟩
  rw [List.mem_singleton.mp he']
  exact ⟨le_rfl, le_rfl⟩

end AppendsInOrder

namespace Basic

/-! ### One manipulator -/

variable [SystemClock] [MachTimebase]

/-- **The end of `manipulate`** increases the delay by one less than the time it has used. -/
theorem appendsInOrder_finish (b : Basic) (front : Entry) (id : ℕ)
    {f : Entry → EventSender → EventSender} (o : Output)
    (hf : ∀ m front, Sends front (fun _ => True) (0 ≤ ·) { current := m, output := o }
      (f front { current := m, output := o })) :
    AppendsInOrder front.eventTimeStamp.timeStamp o (b.finish front id f o).output := by
  unfold finish send
  cases b.objects[id]? with
  | none => exact .of_sameEntries rfl rfl
  | some m =>
      obtain ⟨new, hbatch, htimes⟩ := (hf m { front with validity := .invalid }).exists_batch
      obtain ⟨-, hsorted, hbounds⟩ := htimes fun _ h => h
      dsimp only at hbounds ⊢
      generalize f { front with validity := .invalid } { current := m, output := o } = s at *
      have hevents : s.output.queue.events = o.queue.events ++ new.map o.queue.delay :=
        hbatch.events
      have hdelay : s.output.queue.timeStampDelay = o.queue.timeStampDelay := hbatch.queueDelay
      have hsorted' : InTimeOrder (new.map o.queue.delay) := by
        refine List.pairwise_map.mpr (hsorted.imp fun h => ?_)
        exact add_le_add_left h.le _
      have hlower : ∀ e ∈ new.map o.queue.delay, front.eventTimeStamp.timeStamp +
          o.queue.timeStampDelay ≤ e.eventTimeStamp.timeStamp := by
        intro e he
        obtain ⟨e', he', rfl⟩ := List.mem_map.mp he
        have h := (hbounds e' he').1
        rw [add_zero] at h
        exact add_le_add_left h _
      split_ifs with hused
      · refine ⟨?_, _, hevents, hsorted', fun e he => ⟨hlower e he, ?_⟩⟩
        · show o.queue.timeStampDelay ≤ s.output.queue.timeStampDelay + (s.timeStampDelay - 1)
          rw [hdelay]
          exact le_add_of_nonneg_right (Int.sub_nonneg_of_le hused)
        · obtain ⟨e', he', rfl⟩ := List.mem_map.mp he
          show e'.eventTimeStamp.timeStamp + o.queue.timeStampDelay ≤
            front.eventTimeStamp.timeStamp +
              (s.output.queue.timeStampDelay + (s.timeStampDelay - 1))
          have h := (hbounds e' he').2
          rw [hdelay]
          linarith [Int.le_sub_one_of_lt h]
      · -- Nothing is posted without using time.
        refine ⟨hdelay.ge, _, hevents, hsorted', fun e he => ⟨hlower e he, ?_⟩⟩
        obtain ⟨e', he', rfl⟩ := List.mem_map.mp he
        obtain ⟨h, h'⟩ := hbounds e' he'
        exact absurd (lt_of_add_lt_add_left (h.trans_lt h')) hused

/-- **What `manipulate` appends** is in time order from the front entry on. -/
theorem appendsInOrder_manipulate {b : Basic} (h : b.definition.KeepsTimeOrder) (front : Entry)
    (rest : List Entry) (o : Output) (now : AbsoluteTime) :
    let r := b.manipulate front rest o now
    AppendsInOrder front.eventTimeStamp.timeStamp o r.output ∧
      r.front.eventTimeStamp.timeStamp = front.eventTimeStamp.timeStamp := by
  have hmodifiers : AllowsModifiers fun _ => True := fun _ _ => trivial
  have hobserve : SameDelayed b (b.observe front o).1 ∧ (b.observe front o).2 = o :=
    observe_other (.inl h.toDelayedAction) o
  obtain ⟨hsame, houtput⟩ := hobserve
  have hcases := b.manipulates_manipulate front rest o now
  rw [houtput] at hcases
  generalize (b.observe front o).1 = b₁ at hsame hcases
  have h₁ : b₁.definition.KeepsTimeOrder := hsame.definition ▸ h
  generalize b.manipulate front rest o now = r at hcases
  cases hcases with
  | passed hdelayed hentries =>
      obtain ⟨d, rfl⟩ := exists_inputDelay hdelayed
      exact ⟨.of_sameEntries hentries.events hentries.timeStampDelay, rfl⟩
  | @waits o' hentries =>
      refine ⟨.trans (.of_sameEntries hentries.events hentries.timeStampDelay) ?_, rfl⟩
      exact .emplaceBackEntry o' (stopKeyboardRepeatEntry (b₁.delayInput front))
  | @captured _ fromEvents _ fromMandatoryModifiers o' hdelayed hentries =>
      obtain ⟨d, rfl⟩ := exists_inputDelay hdelayed
      refine ⟨.trans (.of_sameEntries hentries.events hentries.timeStampDelay) ?_, rfl⟩
      unfold capture
      exact appendsInOrder_finish _ { front with eventTimeStamp.inputDelayDuration := d } _ o'
        fun m front => BasicDefinition.sends_postTo hmodifiers (h₁.allows (by simp)) _
  | released =>
      refine ⟨appendsInOrder_finish _ front _ o fun m front => ?_, rfl⟩
      exact BasicDefinition.sends_postKeyUp hmodifiers (h₁.allows (by simp)) (h₁.allows (by simp))
        (fun _ => h₁.allows (by simp)) (fun _ _ => trivial)

end Basic

/-! ### The loop over the manipulators -/

variable [SystemClock] [MachTimebase]

theorem Slot.appendsInOrder_manipulateAll (rest : List Entry) (now : AbsoluteTime)
    {slots : List Slot} (h : ∀ slot ∈ slots, slot.basic.definition.KeepsTimeOrder) (front : Entry)
    (o : Output) :
    let p := manipulateAll rest now slots front o
    AppendsInOrder front.eventTimeStamp.timeStamp o p.output ∧
      p.front.eventTimeStamp.timeStamp = front.eventTimeStamp.timeStamp := by
  induction slots generalizing front o with
  | nil => exact ⟨.of_sameEntries rfl rfl, rfl⟩
  | cons slot slots ih =>
      obtain ⟨happends, htime⟩ :=
        Basic.appendsInOrder_manipulate (h slot List.mem_cons_self) front rest o now
      obtain ⟨happends', htime'⟩ := ih (fun s hs => h s (List.mem_cons_of_mem _ hs))
        (slot.basic.manipulate front rest o now).front
        (slot.basic.manipulate front rest o now).output
      rw [htime] at happends' htime'
      unfold manipulateAll
      dsimp only
      split_ifs
      · exact ⟨happends, htime⟩
      · exact ⟨happends.trans happends', htime'⟩

omit [SystemClock] [MachTimebase] in
/-- A callback that posts for none of the manipulators. -/
theorem Slot.output_fire {serial : ℕ} {f : Basic → Output → Basic × Output} {slots : List Slot}
    (h : ∀ slot ∈ slots, ∀ o, (f slot.basic o).2 = o) (o : Output) :
    (fire serial f slots o).2 = o := by
  induction slots with
  | nil => rfl
  | cons slot slots ih =>
      unfold fire
      split_ifs
      · exact h slot List.mem_cons_self o
      · exact ih fun s hs => h s (List.mem_cons_of_mem _ hs)

namespace Connection

/-! ### Connections -/

/-- All manipulators keep the time order. -/
def AllKeepTimeOrder (c : Connection) : Prop :=
  ∀ slot ∈ c.manager.manipulators, slot.basic.definition.KeepsTimeOrder

/-- One output queue is the other after some calls of `erase_front_event`, up to what is no entry.
-/
def Consumes (o o' : Output) : Prop :=
  ∃ count, o'.queue.events = (Queue.eraseFrontEvent^[count] o.queue).events ∧
    o'.queue.timeStampDelay = (Queue.eraseFrontEvent^[count] o.queue).timeStampDelay

/-- The steps in question: without the reordering, new manipulators keep the time order, and nothing
else pushes to the output queue. -/
def OrderedStep (c : Connection) : Input → Prop
  | .manipulate _ reorder => reorder = false
  | .pushBackManipulator d => d.KeepsTimeOrder
  | .outside o => Consumes c.output o
  | _ => True

theorem appendsInOrder_handleFront {c : Connection} (h : c.AllKeepTimeOrder) (front : Entry)
    (rest : List Entry) (now : AbsoluteTime) :
    let r := c.handleFront front rest now
    AppendsInOrder front.eventTimeStamp.timeStamp c.output r.output ∧
      r.front.eventTimeStamp.timeStamp = front.eventTimeStamp.timeStamp := by
  have hfront : AppendsInOrder front.eventTimeStamp.timeStamp c.output
        (c.manipulateFront front rest now).output ∧
      (c.manipulateFront front rest now).front.eventTimeStamp.timeStamp =
        front.eventTimeStamp.timeStamp := by
    unfold manipulateFront
    split_ifs
    · exact ⟨.of_sameEntries rfl rfl, rfl⟩
    · exact Slot.appendsInOrder_manipulateAll rest now h front c.output
  unfold handleFront
  cases front.event <;> first | exact hfront | exact ⟨.of_sameEntries rfl rfl, rfl⟩

omit [MachTimebase] in
theorem appendsInOrder_copyFront (front : Entry) (o : Output) :
    AppendsInOrder front.eventTimeStamp.timeStamp o (copyFront front false o) := by
  unfold copyFront
  by_cases hvalid : front.validity = .valid
  · rw [if_pos hvalid]
    exact .emplaceBackEntry o front
  · rw [if_neg hvalid]
    exact .of_sameEntries rfl rfl

/-- The output queue after a call of `manipulate` that finds an entry, and the entry itself, which
has been processed or waits. -/
theorem appendsInOrder_manipulate {c : Connection} (h : c.AllKeepTimeOrder) {front : Entry}
    {rest : List Entry} (hevents : c.input.events = front :: rest) (now : AbsoluteTime) :
    let c' := c.manipulate now false
    AppendsInOrder front.eventTimeStamp.timeStamp c.output c'.output ∧
      ∃ front', front'.eventTimeStamp.timeStamp = front.eventTimeStamp.timeStamp ∧
        c.processed ++ [front'] <+: c'.processed ++ c'.input.events.head?.toList := by
  obtain ⟨happends, htime⟩ := appendsInOrder_handleFront h front rest now
  unfold manipulate
  simp only [hevents]
  split_ifs
  · exact ⟨happends, _, htime, List.prefix_rfl⟩
  · have hcopy := appendsInOrder_copyFront (c.handleFront front rest now).front
      (c.handleFront front rest now).output
    rw [htime] at hcopy
    exact ⟨happends.trans hcopy, _, htime, List.prefix_append _ _⟩

omit [Exprtk] [SystemClock] [MachTimebase] in
/-- Consuming drops entries, and keeps the delay as long as there are any. -/
theorem iterate_eraseFrontEvent (q : Queue) (count : ℕ) :
    (Queue.eraseFrontEvent^[count] q).events = q.events.drop count ∧
      ((Queue.eraseFrontEvent^[count] q).events ≠ [] →
        (Queue.eraseFrontEvent^[count] q).timeStampDelay = q.timeStampDelay) := by
  induction count generalizing q with
  | zero => exact ⟨rfl, fun _ => rfl⟩
  | succ count ih =>
      obtain ⟨hevents, hdelay⟩ := ih q.eraseFrontEvent
      rw [Function.iterate_succ_apply]
      refine ⟨by rw [hevents, Queue.eraseFrontEvent, List.drop_tail], fun hne => ?_⟩
      rw [hdelay hne, Queue.eraseFrontEvent]
      refine if_neg fun hempty => hne ?_
      rw [hevents, Queue.eraseFrontEvent, List.isEmpty_iff.mp hempty, List.drop_nil]

/-! ### The invariant -/

omit [SystemClock] [MachTimebase] in
/-- The output queue is in time order, and none of its entries is later than some entry that has
been read, with the delay of the queue. -/
structure TimeOrdered (c : Connection) : Prop where
  output : InTimeOrder c.output.queue.events
  bound : ∀ e ∈ c.output.queue.events, ∃ a ∈ c.processed ++ c.input.events.head?.toList,
    e.eventTimeStamp.timeStamp ≤ a.eventTimeStamp.timeStamp + c.output.queue.timeStampDelay

/-- **A call of `manipulate`** keeps the time order, when the front entry is not earlier than what
has been processed. -/
theorem TimeOrdered.manipulate {c : Connection} (h : c.TimeOrdered) (hall : c.AllKeepTimeOrder)
    (hhistory : InTimeOrder c.history) (now : AbsoluteTime) :
    (c.manipulate now false).TimeOrdered := by
  cases hevents : c.input.events with
  | nil =>
      unfold Connection.manipulate
      rw [hevents]
      exact ⟨h.output, fun e he => by simpa [hevents] using h.bound e he⟩
  | cons front rest =>
      obtain ⟨happends, front', htime, hread⟩ := appendsInOrder_manipulate hall hevents now
      obtain ⟨new, hnew, hsorted, hbounds⟩ := happends.appended
      -- What has been read is not later than the front entry.
      have hpast : ∀ a ∈ c.processed ++ c.input.events.head?.toList,
          a.eventTimeStamp.timeStamp ≤ front.eventTimeStamp.timeStamp := by
        rw [hevents]
        intro a ha
        rcases List.mem_append.mp ha with ha | ha
        · rw [InTimeOrder, history, hevents] at hhistory
          exact (List.pairwise_append.mp hhistory).2.2 a ha front List.mem_cons_self
        · obtain rfl : a = front := by simpa using ha
          exact le_rfl
      have hold : ∀ e ∈ c.output.queue.events, e.eventTimeStamp.timeStamp ≤
          front.eventTimeStamp.timeStamp + c.output.queue.timeStampDelay := by
        intro e he
        obtain ⟨a, ha, hle⟩ := h.bound e he
        exact hle.trans (add_le_add_left (hpast a ha) _)
      have hfront' := hread.subset (List.mem_append_right _ (List.mem_singleton_self front'))
      refine ⟨?_, fun e he => ⟨front', hfront', ?_⟩⟩
      · rw [hnew]
        refine List.pairwise_append.mpr ⟨h.output, hsorted, fun e he e' he' => ?_⟩
        exact (hold e he).trans (hbounds e' he').1
      · rw [htime]
        rw [hnew] at he
        rcases List.mem_append.mp he with he | he
        · exact (hold e he).trans (add_le_add_right happends.delay_le _)
        · exact (hbounds e he).2

/-- A timer of a rule without timers posts nothing. -/
theorem output_fireHeldDown {b : Basic} (h : b.definition.KeepsTimeOrder) (id : ℕ) (o : Output) :
    (b.fireHeldDown id o).2 = o := by
  unfold Basic.fireHeldDown
  split_ifs
  · simp only [h.toIfHeldDown]
    split_ifs <;> rfl
  · rfl

theorem output_fireDelayedAction {b : Basic} (h : b.definition.KeepsTimeOrder) (id : ℕ)
    (o : Output) : (b.fireDelayedAction id o).2 = o := by
  unfold Basic.fireDelayedAction
  split_ifs
  · simp only [h.toDelayedAction]
    split_ifs <;> rfl
  · rfl

theorem TimeOrdered.step {c : Connection} (h : c.TimeOrdered) (hall : c.AllKeepTimeOrder)
    (hhistory : InTimeOrder c.history) {i : Input} (hstep : c.OrderedStep i) :
    (c.step i).TimeOrdered := by
  cases i with
  | arrive e =>
      refine ⟨h.output, fun e' he' => ?_⟩
      obtain ⟨a, ha, hle⟩ := h.bound e' he'
      refine ⟨a, ?_, hle⟩
      show a ∈ c.processed ++ (c.input.events ++ [c.input.delay e]).head?.toList
      cases hevents : c.input.events with
      | nil =>
          rw [hevents] at ha
          exact List.mem_append_left _ (by simpa using ha)
      | cons front rest => rwa [hevents] at ha
  | manipulate now reorder =>
      obtain rfl : reorder = false := hstep
      exact h.manipulate hall hhistory now
  | fireHeldDown serial id =>
      have houtput : (c.step (.fireHeldDown serial id)).output = c.output :=
        Slot.output_fire (fun slot hslot o => output_fireHeldDown (hall slot hslot) id o) c.output
      exact ⟨houtput ▸ h.output, houtput ▸ h.bound⟩
  | fireDelayedAction serial id =>
      have houtput : (c.step (.fireDelayedAction serial id)).output = c.output :=
        Slot.output_fire (fun slot hslot o => output_fireDelayedAction (hall slot hslot) id o)
          c.output
      exact ⟨houtput ▸ h.output, houtput ▸ h.bound⟩
  | invalidateManipulators => exact ⟨h.output, h.bound⟩
  | pushBackManipulator d => exact ⟨h.output, h.bound⟩
  | outside o =>
      obtain ⟨count, hevents, hdelay⟩ := hstep
      obtain ⟨hdrop, hkeep⟩ := iterate_eraseFrontEvent c.output.queue count
      have hevents' : o.queue.events = c.output.queue.events.drop count := hevents.trans hdrop
      refine ⟨?_, fun e he => ?_⟩
      · show InTimeOrder o.queue.events
        rw [hevents']
        exact h.output.sublist (List.drop_sublist _ _)
      · have he : e ∈ o.queue.events := he
        have hne := List.ne_nil_of_mem he
        rw [hevents'] at he
        obtain ⟨a, ha, hle⟩ := h.bound e (List.mem_of_mem_drop he)
        refine ⟨a, ha, ?_⟩
        show e.eventTimeStamp.timeStamp ≤ a.eventTimeStamp.timeStamp + o.queue.timeStampDelay
        rwa [hdelay, hkeep (hevents ▸ hne)]

/-- The manipulators are those that were there before, or the one that is inserted. -/
theorem allKeepTimeOrder_step {c : Connection} (hwf : c.WellFormed) (h : c.AllKeepTimeOrder)
    {i : Input} (hstep : c.OrderedStep i) : (c.step i).AllKeepTimeOrder := by
  intro slot' hslot'
  have hbefore (hnext : (c.step i).manager.nextSerial = c.manager.nextSerial) :
      slot'.basic.definition.KeepsTimeOrder := by
    obtain ⟨slot, hslot, hevolves⟩ := (evolution_step hwf i).exists_of_nextSerial_eq hnext hslot'
    rw [hevolves.definition]
    exact h slot hslot
  cases i with
  | manipulate now reorder => exact hbefore (nextSerial_manipulate hwf now reorder)
  | pushBackManipulator d =>
      rcases List.mem_append.mp hslot' with hslot' | hslot'
      · exact h slot' hslot'
      · rw [List.mem_singleton.mp hslot']
        exact hstep
  | _ => exact hbefore rfl

/-! ### Runs -/

/-- The input queue never delays what arrives. -/
theorem inputDelay_run (definitions : List BasicDefinition) (o : Output) (is : List Input) :
    (Machine.run step (initial definitions o) is).input.timeStampDelay = 0 := by
  have keep (c : Connection) (i : Input) (h : c.input.timeStampDelay = 0) :
      (c.step i).input.timeStampDelay = 0 := by
    cases i with
    | manipulate now reorder =>
        simp only [step, Connection.manipulate]
        cases c.input.events with
        | nil => exact h
        | cons front rest =>
            dsimp only
            split_ifs
            · exact h
            · show (if c.input.events.tail.isEmpty then 0 else c.input.timeStampDelay) = 0
              rw [h, ite_self]
    | _ => exact h
  exact Machine.run_invariant keep rfl is

/-- The history has the time stamps of what has arrived. -/
theorem timeStamps_run (definitions : List BasicDefinition) (o : Output) (is : List Input) :
    (Machine.run step (initial definitions o) is).history.map (·.eventTimeStamp.timeStamp) =
      (arrivals is).map (·.eventTimeStamp.timeStamp) := by
  induction is using List.reverseRecOn with
  | nil => rfl
  | append_singleton is i ih =>
      have hdelay := inputDelay_run definitions o is
      rw [Machine.run_concat, history_map_step ?_ ?_ (wellFormed_run definitions o is) ?_, ih,
        arrivals_append, List.map_append]
      · rintro front _ ⟨d, rfl⟩
        rfl
      · rintro front _ ⟨d, rfl⟩
        rfl
      · rintro e -
        rw [Queue.delay, hdelay, add_zero]

theorem inTimeOrder_history_run (definitions : List BasicDefinition) (o : Output) {is : List Input}
    (harrivals : InTimeOrder (arrivals is)) :
    InTimeOrder (Machine.run step (initial definitions o) is).history := by
  refine List.pairwise_map.mp ?_
  rw [timeStamps_run]
  exact List.pairwise_map.mpr harrivals

/-- The invariant holds at every moment of a run whose entries arrive in time order. -/
theorem timeOrdered_run (definitions : List BasicDefinition) (world : World) {is : List Input}
    (hdefinitions : ∀ d ∈ definitions, d.KeepsTimeOrder)
    (hsteps : Machine.Steps step OrderedStep (initial definitions ⟨{}, world⟩) is)
    (harrivals : InTimeOrder (arrivals is)) :
    (Machine.run step (initial definitions ⟨{}, world⟩) is).TimeOrdered ∧
      (Machine.run step (initial definitions ⟨{}, world⟩) is).AllKeepTimeOrder := by
  induction is using List.reverseRecOn with
  | nil =>
      refine ⟨⟨List.Pairwise.nil, fun e he => absurd he List.not_mem_nil⟩, fun slot hslot => ?_⟩
      obtain ⟨d, hd, heq⟩ := exists_of_mem_initial hslot
      rw [heq]
      exact hdefinitions d hd
  | append_singleton is i ih =>
      rw [Machine.steps_append] at hsteps
      rw [arrivals_append] at harrivals
      have hbefore := (List.pairwise_append.mp harrivals).1
      obtain ⟨hordered, hall⟩ := ih hsteps.1 hbefore
      have hwf := wellFormed_run definitions ⟨{}, world⟩ is
      have hhistory := inTimeOrder_history_run definitions ⟨{}, world⟩ hbefore
      rw [Machine.run_concat]
      exact ⟨hordered.step hall hhistory hsteps.2.1, allKeepTimeOrder_step hwf hall hsteps.2.1⟩

/-- **The entries of the output queue are in time order**, at every moment of a run whose entries
arrive in time order.  No sum of time stamps overflows as long as those of the entries that have
arrived do not with the delay of the queue: no entry is later. -/
theorem run_timeOrder (definitions : List BasicDefinition) (world : World) (is : List Input)
    (hdefinitions : ∀ d ∈ definitions, d.KeepsTimeOrder)
    (hsteps : Machine.Steps step OrderedStep (initial definitions ⟨{}, world⟩) is)
    (harrivals : InTimeOrder (arrivals is)) :
    let queue := (Machine.run step (initial definitions ⟨{}, world⟩) is).output.queue
    InTimeOrder queue.events ∧
      ∀ e ∈ queue.events, ∃ a ∈ arrivals is,
        e.eventTimeStamp.timeStamp ≤ a.eventTimeStamp.timeStamp + queue.timeStampDelay := by
  intro queue
  obtain ⟨hordered, -⟩ := timeOrdered_run definitions world hdefinitions hsteps harrivals
  refine ⟨hordered.output, fun e he => ?_⟩
  obtain ⟨b, hb, hle⟩ := hordered.bound e he
  have hhistory : b ∈ (Machine.run step (initial definitions ⟨{}, world⟩) is).history := by
    rcases List.mem_append.mp hb with hb | hb
    · exact List.mem_append_left _ hb
    · exact List.mem_append_right _ (List.mem_of_mem_head? (Option.mem_toList.mp hb))
  have htime := List.mem_map_of_mem (f := (·.eventTimeStamp.timeStamp)) hhistory
  rw [timeStamps_run] at htime
  obtain ⟨a, ha, heq⟩ := List.mem_map.mp htime
  exact ⟨a, ha, heq ▸ hle⟩

/-- The key `a`, mapped to `b`, is pressed, released and pressed again, and the key_down of `b` is
taken away before the release. -/
def typedAndConsumed : List Input :=
  let pressed := Machine.run step
    (initial [mapped (.momentarySwitchEvent ⟨⟨UsagePage.keyboardOrKeypad, 5⟩⟩)]
      ⟨{}, World.initial⟩) [.arrive (typed .keyDown), .manipulate 0 false]
  [.arrive (typed .keyDown), .manipulate 0 false,
    .outside { pressed.output with queue := pressed.output.queue.eraseFrontEvent },
    .arrive { typed .keyUp with eventTimeStamp.timeStamp := 5 }, .manipulate 5 false,
    .arrive { typed .keyDown with eventTimeStamp.timeStamp := 5 }, .manipulate 5 false]

omit [Exprtk] [SystemClock] [MachTimebase] in
/-- Both presses of `b` have been posted, and the entries that are left are in time order. -/
theorem run_timeOrder_mapped :
    ∃ (_ : Exprtk) (_ : SystemClock) (_ : MachTimebase),
      let queue := (Machine.run step
        (initial [mapped (.momentarySwitchEvent ⟨⟨UsagePage.keyboardOrKeypad, 5⟩⟩)]
          ⟨{}, World.initial⟩) typedAndConsumed).output.queue
      queue.events.map Entry.eventType = [.keyUp, .keyDown] ∧ InTimeOrder queue.events ∧
        ∀ e ∈ queue.events, ∃ a ∈ arrivals typedAndConsumed,
          e.eventTimeStamp.timeStamp ≤ a.eventTimeStamp.timeStamp + queue.timeStampDelay := by
  have hdefinition : ∀ d ∈ [mapped (.momentarySwitchEvent ⟨⟨UsagePage.keyboardOrKeypad, 5⟩⟩)],
      d.KeepsTimeOrder := by
    intro d hd
    rw [List.mem_singleton.mp hd]
    exact ⟨rfl, rfl, by simp [mapped]⟩
  refine ⟨.singleVariable, ⟨fun _ => 0⟩, ⟨1, 1⟩, by decide,
    @run_timeOrder .singleVariable ⟨fun _ => 0⟩ ⟨1, 1⟩
      [mapped (.momentarySwitchEvent ⟨⟨UsagePage.keyboardOrKeypad, 5⟩⟩)]
      (@World.initial .singleVariable) (@typedAndConsumed .singleVariable ⟨fun _ => 0⟩ ⟨1, 1⟩)
      hdefinition ?_ ?_⟩
  · exact ⟨trivial, rfl, ⟨1, rfl, rfl⟩, trivial, rfl, trivial, rfl, trivial⟩
  · simp [InTimeOrder, arrivals, typedAndConsumed, typed]

end Connection

end Karabiner
