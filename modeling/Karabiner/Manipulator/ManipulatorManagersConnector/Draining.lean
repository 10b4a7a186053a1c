import Karabiner.Library.LexDescent
import Karabiner.Manipulator.ManipulatorManagersConnector.Potential

/-!
# The chain drains

Every input queue runs empty when `device_grabber::manipulate` is called again at each time stamp it
has asked for.  A stage that lowers its potential may extend the input queue of the next one, so the
potentials of a chain descend in the lexicographic order.

* `Connection.Drains` — what the loop of `connection::manipulate` does.
* `Stage.manipulateFrom_drains` — a round that lowers no potential finds every front entry waiting.
* `ManipulatorManagersConnector.after_drains` — **the chain drains**.
-/

namespace Karabiner

variable [Exprtk] [SystemClock] [MachTimebase]

namespace Connection

/-! ### The loop -/

/-- The loop of `connection::manipulate` runs from a state to another one: it goes on as long as an
entry has been processed. -/
inductive Loops (now : AbsoluteTime) (reorder : Bool) : Connection → Connection → Prop
  | stops {c : Connection} (h : c.processes now = false) :
      Loops now reorder c (c.manipulate now reorder)
  | again {c c' : Connection} (h : c.processes now = true)
      (rest : Loops now reorder (c.manipulate now reorder) c') : Loops now reorder c c'

/-- **The loop terminates**, with the result of `manipulateWhileProcessed`. -/
theorem loops_manipulateWhileProcessed (c : Connection) (now : AbsoluteTime) (reorder : Bool) :
    Loops now reorder c (c.manipulateWhileProcessed now reorder) := by
  unfold manipulateWhileProcessed
  generalize hfuel : c.input.events.length = fuel
  induction fuel generalizing c with
  | zero =>
      refine .stops ?_
      rw [processes, List.length_eq_zero_iff.mp hfuel]
  | succ fuel ih =>
      unfold manipulateLoop
      split_ifs with h
      · obtain ⟨front, front', rest, hprocesses⟩ := manipulate_processes h reorder
        refine .again h (ih _ ?_)
        rw [hprocesses.events, List.length_cons] at hfuel
        rw [hprocesses.events']
        exact Nat.succ_inj.mp hfuel
      · exact .stops (by simpa using h)

/-- What the loop does: it processes entries from the front on, it stops at an entry that waits, and
a loop that leaves the potential as it was has found the front entry waiting. -/
structure Drains (now : AbsoluteTime) (c c' : Connection) : Prop where
  content : (c'.processed ++ c'.input.events).map Entry.content =
    (c.processed ++ c.input.events).map Entry.content
  processed : c.processed <+: c'.processed
  settled : ∀ front, c'.input.events.head? = some front → front.isStop = false
  potential : c'.potential ≤ c.potential
  quiet : c'.potential = c.potential →
    (∀ thresholds, Queue.Quiet thresholds c.output.queue.events c'.output.queue.events) ∧
      ∀ front, c.input.events.head? = some front → front.isStop = false →
        now < front.eventTimeStamp.makeTimeStampWithInputDelay

theorem Loops.drains {now : AbsoluteTime} {reorder : Bool} {c c' : Connection}
    (h : Loops now reorder c c') : Drains now c c' := by
  induction h with
  | stops h =>
      have hwaits := manipulate_waits h reorder
      refine ⟨?_, ?_, hwaits.settled, hwaits.potential, fun hsame => ?_⟩
      · rw [hwaits.processed, List.map_append, List.map_append, hwaits.content]
      · rw [hwaits.processed]
      · obtain ⟨hquiet, hearly⟩ := hwaits.quiet hsame
        exact ⟨hquiet, fun front hfront _ => hearly front hfront⟩
  | @again c c' h _ ih =>
      obtain ⟨front, front', rest, hstep⟩ := manipulate_processes h reorder
      have hle : (c.manipulate now reorder).potential ≤ c.potential := by
        cases hfront : front.isStop with
        | false => exact (hstep.potential hfront).le
        | true => exact (hstep.stop hfront).1.le
      refine ⟨ih.content.trans ?_, ?_, ih.settled, ih.potential.trans hle, fun hsame => ?_⟩
      · rw [hstep.processed, hstep.events, hstep.events']
        simp [hstep.content]
      · refine List.IsPrefix.trans ?_ ih.processed
        rw [hstep.processed]
        exact List.prefix_append _ _
      · have hpotential := ih.potential
        cases hfront : front.isStop with
        | false =>
            have hlt := hstep.potential hfront
            omega
        | true =>
            obtain ⟨hsame', hquiet⟩ := hstep.stop hfront
            obtain ⟨hquiet', -⟩ := ih.quiet (hsame.trans hsame'.symm)
            refine ⟨fun thresholds => (hquiet thresholds).trans (hquiet' thresholds), ?_⟩
            intro e he hstop
            rw [hstep.events] at he
            obtain rfl : front = e := Option.some.inj he
            exact absurd (hfront.symm.trans hstop) (by decide)

/-- **The loop consumes every entry that is due**, with all entries ahead of it. -/
theorem Loops.consumes {now : AbsoluteTime} {reorder : Bool} {c c' : Connection}
    (h : Loops now reorder c c') {due rest : List Entry}
    (hevents : c.input.events = due ++ rest)
    (hdue : ∀ e ∈ due, e.dueTimeStamp (Slot.thresholds c.manager.manipulators) ≤ now) :
    c.processed.length + due.length ≤ c'.processed.length := by
  induction h generalizing due with
  | stops h =>
      have hwaits := manipulate_waits h reorder
      cases due with
      | nil => rw [hwaits.processed, List.length_nil, Nat.add_zero]
      | cons e due =>
          have hlt := hwaits.due e (by rw [hevents]; rfl)
          exact absurd (hdue e List.mem_cons_self) (not_le_of_gt hlt)
  | @again c c' h hloop ih =>
      obtain ⟨front, front', rest', hstep⟩ := manipulate_processes h reorder
      cases due with
      | nil => exact (Loops.again h hloop).drains.processed.length_le
      | cons e due =>
          obtain ⟨-, rfl⟩ := List.cons_eq_cons.mp (hstep.events.symm.trans hevents)
          have hrest := ih hstep.events' fun e he => by
            rw [hstep.thresholds]
            exact hdue e (List.mem_cons_of_mem _ he)
          rw [hstep.processed, List.length_append, List.length_singleton] at hrest
          rw [List.length_cons]
          omega

end Connection

/-! ### A round -/

namespace Stage

omit [Exprtk] [SystemClock] in
/-- How much progress the stage can still make. -/
def potential (s : Stage) : ℕ :=
  Queue.weight (Slot.thresholds s.manager.manipulators) s.input.events +
    Slot.pendingActions s.manager.manipulators

omit [Exprtk] [SystemClock] [MachTimebase] in
/-- No entry without weight is at the front of the input queue. -/
def Settled (s : Stage) : Prop :=
  ∀ front, s.input.events.head? = some front → front.isStop = false

omit [Exprtk] [SystemClock] [MachTimebase] in
/-- An entry at the front of the input queue still waits. -/
def Early (now : AbsoluteTime) (s : Stage) : Prop :=
  ∀ front, s.input.events.head? = some front → front.isStop = false →
    now < front.eventTimeStamp.makeTimeStampWithInputDelay

/-- **What a round does** from a stage on: the potentials descend, and if they stay as they were,
then every front entry still waits. -/
theorem manipulateFrom_drains (now : AbsoluteTime) (reorder : Bool) (s : Stage)
    (stages : List Stage) (output : Output) :
    let r := (s.manipulateFrom now reorder stages output).1
    r.length = (s :: stages).length ∧ (∀ s' ∈ r, s'.Settled) ∧
      LexLe (r.map potential) ((s :: stages).map potential) ∧
      (r.map potential = (s :: stages).map potential → ∀ s' ∈ s :: stages, s'.Early now) := by
  induction stages generalizing s output with
  | nil =>
      have hdrains :=
        ((s.connect output).loops_manipulateWhileProcessed now reorder).drains
      unfold manipulateFrom
      dsimp only
      generalize (s.connect output).manipulateWhileProcessed now reorder = c at hdrains ⊢
      refine ⟨rfl, ?_, LexLe.cons_of_le hdrains.potential [], fun hsame => ?_⟩
      · intro s' hs'
        rw [List.mem_singleton.mp hs']
        exact hdrains.settled
      · intro s' hs'
        rw [List.mem_singleton.mp hs']
        exact (hdrains.quiet (List.head_eq_of_cons_eq hsame)).2
  | cons t ts ih =>
      have hdrains :=
        ((s.connect ⟨t.input, output.world⟩).loops_manipulateWhileProcessed now reorder).drains
      unfold manipulateFrom
      dsimp only
      generalize (s.connect ⟨t.input, output.world⟩).manipulateWhileProcessed now reorder = c
        at hdrains ⊢
      obtain ⟨hlength, hsettled, hle, hearly⟩ :=
        ih { t with input := c.output.queue } ⟨output.queue, c.output.world⟩
      have hhead : c.stage.potential ≤ s.potential := hdrains.potential
      have htail : c.stage.potential = s.potential →
          LexLe (({ t with input := c.output.queue } :: ts).map potential)
            ((t :: ts).map potential) ∧
          (({ t with input := c.output.queue } :: ts).map potential = (t :: ts).map potential →
            (Early now { t with input := c.output.queue } → Early now t)) := by
        intro hsame
        rcases (hdrains.quiet hsame).1 (Slot.thresholds t.manager.manipulators) with
          hlt | ⟨stops, hevents, hstops⟩
        · have hlower : potential { t with input := c.output.queue } < t.potential :=
            Nat.add_lt_add_right hlt _
          exact ⟨Or.inl hlower, fun heq => absurd (List.head_eq_of_cons_eq heq) hlower.ne⟩
        · have hequal : potential { t with input := c.output.queue } = t.potential := by
            change Queue.weight _ c.output.queue.events + _ = _
            rw [hevents, Queue.weight_append_stops hstops]
            rfl
          refine ⟨Or.inr ⟨hequal, LexLe.refl _⟩, fun _ hwaits => ?_⟩
          intro front hfront
          refine hwaits front ?_
          change c.output.queue.events.head? = _
          rw [hevents]
          change (t.input.events ++ stops).head? = _
          rw [List.head?_append, hfront]
          rfl
      refine ⟨congrArg Nat.succ hlength, ?_, ?_, fun hsame => ?_⟩
      · intro s' hs'
        rcases List.mem_cons.mp hs' with rfl | hs'
        · exact hdrains.settled
        · exact hsettled s' hs'
      · rcases hhead.lt_or_eq with hlt | heq
        · exact Or.inl hlt
        · exact Or.inr ⟨heq, hle.trans (htail heq).1⟩
      · have heq : c.stage.potential = s.potential := List.head_eq_of_cons_eq hsame
        have hrest := List.tail_eq_of_cons_eq hsame
        obtain ⟨hnext, hearly'⟩ := htail heq
        -- the potentials of the later stages have not changed on the way either
        have hsame' := LexLe.antisymm hnext (hrest ▸ hle)
        have hwaits := hearly (hrest.trans hsame'.symm)
        intro s' hs'
        rcases List.mem_cons.mp hs' with rfl | hs'
        · exact (hdrains.quiet heq).2
        · rcases List.mem_cons.mp hs' with rfl | hs'
          · exact hearly' hsame' (hwaits _ List.mem_cons_self)
          · exact hwaits s' (List.mem_cons_of_mem _ hs')

/-- A round leaves empty input queues empty. -/
theorem manipulateFrom_of_empty (now : AbsoluteTime) (reorder : Bool) {s : Stage}
    {stages : List Stage} (hempty : ∀ s' ∈ s :: stages, s'.input.events = []) (output : Output) :
    ∀ s' ∈ (s.manipulateFrom now reorder stages output).1, s'.input.events = [] := by
  have hloop {s : Stage} (hs : s.input.events = []) (output : Output) :
      let c := (s.connect output).manipulateWhileProcessed now reorder
      c.input = s.input ∧ c.output = output := by
    have hevents : (s.connect output).input.events = [] := hs
    rw [Connection.manipulateWhileProcessed, hevents, List.length_nil, Connection.manipulateLoop,
      Connection.manipulate, hevents]
    exact ⟨rfl, rfl⟩
  induction stages generalizing s output with
  | nil =>
      have hs := hempty s List.mem_cons_self
      intro s' hs'
      rw [List.mem_singleton.mp hs']
      exact (congrArg Queue.events (hloop hs output).1).trans hs
  | cons t ts ih =>
      have hs := hempty s List.mem_cons_self
      obtain ⟨hinput, houtput⟩ := hloop hs ⟨t.input, output.world⟩
      intro s' hs'
      rcases List.mem_cons.mp hs' with rfl | hs'
      · exact (congrArg Queue.events hinput).trans hs
      · rw [houtput] at hs'
        exact ih (fun s' hs' => hempty s' (List.mem_cons_of_mem _ hs')) _ s' hs'

end Stage

/-! ### Rounds -/

namespace ManipulatorManagersConnector

omit [SystemClock] in
/-- The potentials of the stages. -/
def potentials (m : ManipulatorManagersConnector) : List ℕ := m.stages.map Stage.potential

theorem round_drains (m : ManipulatorManagersConnector) (now : AbsoluteTime) (reorder : Bool) :
    (m.round now reorder).stages.length = m.stages.length ∧
      (∀ s ∈ (m.round now reorder).stages, s.Settled) ∧
      LexLe (m.round now reorder).potentials m.potentials ∧
      ((m.round now reorder).potentials = m.potentials → ∀ s ∈ m.stages, s.Early now) := by
  obtain ⟨stages, output⟩ := m
  cases stages with
  | nil => exact ⟨rfl, by simp [round, manipulate], LexLe.refl _, by simp⟩
  | cons s stages => exact s.manipulateFrom_drains now reorder stages output

theorem after_of_empty {m : ManipulatorManagersConnector} {calls : ℕ → AbsoluteTime × Bool} {n : ℕ}
    (hempty : ∀ s ∈ (m.after calls n).stages, s.input.events = []) (r : ℕ) :
    ∀ s ∈ (m.after calls (n + r)).stages, s.input.events = [] := by
  induction r with
  | zero => exact hempty
  | succ r ih =>
      rw [← Nat.add_assoc, after]
      generalize m.after calls (n + r) = m' at ih ⊢
      obtain ⟨stages, output⟩ := m'
      cases stages with
      | nil => exact ih
      | cons s stages => exact Stage.manipulateFrom_of_empty _ _ ih output

omit [SystemClock] [MachTimebase] in
/-- The minimum is the time stamp of some front entry, and there is one unless all input queues are
empty. -/
theorem minInputEventTimeStamp_spec (m : ManipulatorManagersConnector) :
    (m.minInputEventTimeStamp = none → ∀ s ∈ m.stages, s.inputEventTimeStamp = none) ∧
      ∀ t, m.minInputEventTimeStamp = some t → ∃ s ∈ m.stages, s.inputEventTimeStamp = some t := by
  have hfold {f : Option AbsoluteTime → Stage → Option AbsoluteTime}
      (hstep : ∀ result s, (f result s = none → result = none ∧ s.inputEventTimeStamp = none) ∧
        ∀ t, f result s = some t → result = some t ∨ s.inputEventTimeStamp = some t)
      (stages : List Stage) (result : Option AbsoluteTime) :
      let r := stages.foldl f result
      (r = none → result = none ∧ ∀ s ∈ stages, s.inputEventTimeStamp = none) ∧
        ∀ t, r = some t → result = some t ∨ ∃ s ∈ stages, s.inputEventTimeStamp = some t := by
    induction stages generalizing result with
    | nil => exact ⟨fun h => ⟨h, by simp⟩, fun t h => Or.inl h⟩
    | cons s stages ih =>
        rw [List.foldl_cons]
        obtain ⟨hnone, hsome⟩ := ih (f result s)
        refine ⟨fun h => ?_, fun t h => ?_⟩
        · obtain ⟨hnext, hstages⟩ := hnone h
          obtain ⟨hresult, hs⟩ := (hstep result s).1 hnext
          exact ⟨hresult, List.forall_mem_cons.mpr ⟨hs, hstages⟩⟩
        · rcases hsome t h with hnext | ⟨s', hs', heq⟩
          · rcases (hstep result s).2 t hnext with hresult | hs
            · exact Or.inl hresult
            · exact Or.inr ⟨s, List.mem_cons_self, hs⟩
          · exact Or.inr ⟨s', List.mem_cons_of_mem _ hs', heq⟩
  have hmin : (m.minInputEventTimeStamp = none → (none : Option AbsoluteTime) = none ∧
        ∀ s ∈ m.stages, s.inputEventTimeStamp = none) ∧
      ∀ t, m.minInputEventTimeStamp = some t → none = some t ∨
        ∃ s ∈ m.stages, s.inputEventTimeStamp = some t := by
    refine hfold (fun result s => ?_) m.stages none
    cases s.inputEventTimeStamp <;> cases result <;> simp
    split_ifs <;> simp
  exact ⟨fun h => (hmin.1 h).2, fun t h => (hmin.2 t h).resolve_left (by simp)⟩

/-- The rounds empty every input queue. -/
theorem after_empties (m : ManipulatorManagersConnector) (calls : ℕ → AbsoluteTime × Bool)
    (hcalls : ∀ r t, (m.after calls (r + 1)).minInputEventTimeStamp = some t →
      t ≤ (calls (r + 1)).1) :
    ∃ n, ∀ r, n ≤ r → ∀ s ∈ (m.after calls r).stages, s.input.events = [] := by
  have hround (r : ℕ) := (m.after calls r).round_drains (calls r).1 (calls r).2
  have hlength (r : ℕ) : (m.after calls r).potentials.length = m.stages.length := by
    rw [potentials, List.length_map]
    induction r with
    | zero => rfl
    | succ r ih => exact (hround r).1.trans ih
  obtain ⟨n, hn⟩ := LexLe.eventually_const hlength fun r => (hround r).2.2.1
  refine ⟨n + 1, fun r hr => ?_⟩
  obtain ⟨r, rfl⟩ := Nat.exists_eq_add_of_le' hr
  -- every front entry still waits at this call, and the call is as late as the first of them
  have hsettled := (hround (r + n)).2.1
  have hsame :
      (m.after calls (r + n + 1 + 1)).potentials = (m.after calls (r + n + 1)).potentials :=
    (hn _ (by omega)).trans (hn _ (by omega)).symm
  have hearly := (hround (r + n + 1)).2.2.2 hsame
  have hmin := (m.after calls (r + n + 1)).minInputEventTimeStamp_spec
  cases htime : (m.after calls (r + n + 1)).minInputEventTimeStamp with
  | none =>
      intro s hs
      simpa [Stage.inputEventTimeStamp] using hmin.1 htime s hs
  | some t =>
      obtain ⟨s, hs, hst⟩ := hmin.2 t htime
      obtain ⟨front, hfront, rfl⟩ := Option.map_eq_some_iff.mp hst
      have hlate := hcalls (r + n) _ htime
      have hwaits := hearly s hs front hfront (hsettled s hs front hfront)
      exact absurd hlate (not_le_of_gt hwaits)

/-- **The chain drains.**  Each loop terminates; it consumes the entries of its input queue in
order, each once, and it consumes every entry that is due, with all entries ahead of it; and the
rounds empty every input queue. -/
theorem after_drains :
    (∀ (c : Connection) (now : AbsoluteTime) (reorder : Bool),
      Connection.Loops now reorder c (c.manipulateWhileProcessed now reorder)) ∧
    (∀ (c : Connection) (now : AbsoluteTime) (reorder : Bool),
      let c' := c.manipulateWhileProcessed now reorder
      c.processed <+: c'.processed ∧
        (c'.processed ++ c'.input.events).map Entry.content =
          (c.processed ++ c.input.events).map Entry.content) ∧
    (∀ (c : Connection) (now : AbsoluteTime) (reorder : Bool) (due rest : List Entry),
      c.input.events = due ++ rest →
      (∀ e ∈ due, e.dueTimeStamp (Slot.thresholds c.manager.manipulators) ≤ now) →
        c.processed.length + due.length ≤
          (c.manipulateWhileProcessed now reorder).processed.length) ∧
    ∀ (m : ManipulatorManagersConnector) (calls : ℕ → AbsoluteTime × Bool),
      (∀ r t, (m.after calls (r + 1)).minInputEventTimeStamp = some t →
        t ≤ (calls (r + 1)).1) →
      ∃ n, ∀ r, n ≤ r → ∀ s ∈ (m.after calls r).stages, s.input.events = [] := by
  have hloops (c : Connection) (now : AbsoluteTime) (reorder : Bool) :=
    c.loops_manipulateWhileProcessed now reorder
  refine ⟨hloops, fun c now reorder => ?_, fun c now reorder due rest hevents hdue => ?_,
    after_empties⟩
  · have hdrains := (hloops c now reorder).drains
    exact ⟨hdrains.processed, hdrains.content⟩
  · exact (hloops c now reorder).consumes hevents hdue

open Connection in
omit [SystemClock] [MachTimebase] in
/-- A manager that maps from `a` and `b`, when only `a` has been pressed. -/
def waiting : ManipulatorManagersConnector where
  stages :=
    [{ input.events := [keyEntry 4 .keyDown 0]
       manager := ManipulatorManager.pushBackManipulator {} (simultaneous [4, 5] false) }]
  output := ⟨{}, World.initial⟩

/-- The second call is at the time stamp that the first one has asked for. -/
def waitingCalls (r : ℕ) : AbsoluteTime × Bool := (if r = 0 then 0 else 50000000, false)

/-! ### An inherited input delay -/

open Connection in
omit [SystemClock] [MachTimebase] in
/-- A chain of two managers.  The first one maps from `a` and `b` within a second, and `a` has
already waited; the second one maps from `c` and `d` within 50 milliseconds. -/
def inherited : ManipulatorManagersConnector where
  stages :=
    [{ input.events :=
        [{ keyEntry 4 .keyDown 0 with eventTimeStamp.inputDelayDuration := 1000000000 },
          keyEntry 5 .keyDown 1]
       manager := ManipulatorManager.pushBackManipulator {}
        { simultaneous [4, 5] false with
          parameters := ⟨1000, 1000, by decide, by decide, by decide⟩
          to_ :=
            [{ eventDefinition := .momentarySwitchEvent ⟨⟨UsagePage.keyboardOrKeypad, 6⟩⟩ }] } },
      { manager := ManipulatorManager.pushBackManipulator {} (simultaneous [6, 7] false) }]
  output := ⟨{}, World.initial⟩

end Karabiner.ManipulatorManagersConnector

namespace Karabiner.ManipulatorManagersConnector

theorem after_drains_waiting :
    ∃ (_ : Exprtk) (_ : SystemClock) (_ : MachTimebase), ∃ n, ∀ r, n ≤ r →
      ∀ s ∈ (waiting.after waitingCalls r).stages, s.input.events = [] := by
  refine ⟨.singleVariable, ⟨fun _ => 0⟩, ⟨1, 1⟩, ?_⟩
  let _ : Exprtk := .singleVariable
  let _ : SystemClock := ⟨fun _ => 0⟩
  let _ : MachTimebase := ⟨1, 1⟩
  refine after_drains.2.2.2 waiting waitingCalls fun r t ht => ?_
  cases r with
  | zero =>
      have htime : (waiting.after waitingCalls 1).minInputEventTimeStamp = some 50000000 := by
        decide
      exact (Option.some.inj (htime.symm.trans ht)).ge
  | succ r =>
      have hempty := @after_of_empty _ _ _ waiting waitingCalls 2 (by decide) r
      obtain ⟨s, hs, hst⟩ := (minInputEventTimeStamp_spec _).2 t ht
      rw [show r + 1 + 1 = 2 + r by omega] at hs
      rw [Stage.inputEventTimeStamp, hempty s hs] at hst
      cases hst

/-- The entry that the first manager posts still waits in the second one, 100 milliseconds after its
time stamp. -/
theorem not_consumed_inherited :
    ∃ (_ : Exprtk) (_ : SystemClock) (_ : MachTimebase),
      ¬ ∀ (m : ManipulatorManagersConnector) (before now : AbsoluteTime) (reorder : Bool) (i : ℕ)
          (s s' : Stage) (front : Entry),
        (m.round before reorder).stages[i]? = some s →
        s.input.events.head? = some front →
        front.eventTimeStamp.timeStamp +
          (Slot.thresholds s.manager.manipulators).foldr max 0 ≤ now →
        ((m.round before reorder).round now reorder).stages[i]? = some s' →
          s.processed.length < s'.processed.length := by
  refine ⟨.singleVariable, ⟨fun _ => 0⟩, ⟨1, 1⟩, fun h => ?_⟩
  let _ : Exprtk := .singleVariable
  let _ : SystemClock := ⟨fun _ => 0⟩
  let _ : MachTimebase := ⟨1, 1⟩
  have hbefore : ((inherited.round 0 false).stages[1]?).map (fun s =>
      (s.input.events.head?.map fun e => e.eventTimeStamp.timeStamp,
        (Slot.thresholds s.manager.manipulators).foldr max 0, s.processed.length)) =
      some (some 0, 50000000, 0) := by decide
  have hafter : (((inherited.round 0 false).round 100000000 false).stages[1]?).map (fun s =>
      s.processed.length) = some 0 := by decide
  obtain ⟨s, hs, hfields⟩ := Option.map_eq_some_iff.mp hbefore
  obtain ⟨s', hs', hprocessed'⟩ := Option.map_eq_some_iff.mp hafter
  simp only [Prod.mk.injEq] at hfields
  obtain ⟨hhead, hthreshold, hprocessed⟩ := hfields
  obtain ⟨front, hfront, hstamp⟩ := Option.map_eq_some_iff.mp hhead
  have hlt := h inherited 0 100000000 false 1 s s' front hs hfront
    (by rw [hstamp, hthreshold]; decide) hs'
  omega

end Karabiner.ManipulatorManagersConnector
