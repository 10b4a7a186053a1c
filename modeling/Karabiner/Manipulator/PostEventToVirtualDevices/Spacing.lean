import Karabiner.Library.Machine
import Karabiner.Manipulator.PostEventToVirtualDevices.Queue
import Mathlib.Tactic.Linarith

/-!
# The spacing of the reports

`adjust_time_stamp` moves the time stamp of a report away from the reports before it, so that the
window system keeps their order.  It remembers the latest time stamp and the type of the last event
that it did not skip.  Requested time stamps may go backwards, and a skipped event still moves the
latest time stamp.

* `Adjustment` — what one call of `adjust_time_stamp` did.
* `IsSpaced` — the events that are moved, from the history of adjustments alone.
* `run_spacing` — **every such event is 5 milliseconds behind all earlier ones**, and no other event
  is moved.
-/

namespace Karabiner.PostEventToVirtualDevices.Queue

variable [HidReport]

/-! ### Calls -/

/-- A call that adjusts its time stamp. -/
inductive Call
  | emplaceBackKeyEvent (usagePair : UsagePair) (eventType : EventType) (timeStamp : AbsoluteTime)
  | emplaceBackPointingInput (pointingInput : PointingInput) (eventType : EventType)
      (timeStamp : AbsoluteTime)

namespace Call

def eventType : Call → EventType
  | emplaceBackKeyEvent _ eventType _ | emplaceBackPointingInput _ eventType _ => eventType

/-- The time stamp that is requested. -/
def timeStamp : Call → AbsoluteTime
  | emplaceBackKeyEvent _ _ timeStamp | emplaceBackPointingInput _ _ timeStamp => timeStamp

def isModifierKeyEvent : Call → Bool
  | emplaceBackKeyEvent usagePair _ _ => MomentarySwitchEvent.modifierFlag ⟨usagePair⟩
  | emplaceBackPointingInput .. => false

/-- A call appends a report, unless it is for a key of a usage page that has none. -/
def IsReported : Call → Prop
  | emplaceBackKeyEvent usagePair _ _ => usagePair.usagePage ∈ reportedPages
  | emplaceBackPointingInput .. => True

end Call

/-- What a call did to its time stamp. -/
structure Adjustment where
  eventType : EventType
  /-- The adjusted time stamp. -/
  timeStamp : AbsoluteTime
  skipped : Bool

/-- The type of the most recent event that was not skipped. -/
def lastNotSkipped (earlier : List Adjustment) : Option EventType :=
  ((earlier.filter fun a => !a.skipped).getLast?).map Adjustment.eventType

/-- The events that are moved: every key_down, and every key_up of a modifier key or after anything
but a key_up. -/
def IsSpaced (earlier : List Adjustment) (call : Call) : Prop :=
  call.eventType = .keyDown ∨
    call.eventType = .keyUp ∧ (call.isModifierKeyEvent ∨ lastNotSkipped earlier ≠ some .keyUp)

/-! ### One adjustment -/

/-- The `skip` of `adjust_time_stamp`. -/
def skips (q : Queue) (et : EventType) (isModifierKeyEvent : Bool) : Bool :=
  match et with
  | .keyDown => false
  | .keyUp => q.lastEventType = .keyUp && !isModifierKeyEvent
  | .single => true

variable [MachTimebase]

/-- The adjusted time stamp of a call. -/
def adjusted (q : Queue) (call : Call) : AbsoluteTime :=
  (q.adjustTimeStamp call.timeStamp call.eventType call.isModifierKeyEvent).1

/-- The effect of a call. -/
def call (q : Queue) : Call → Queue
  | .emplaceBackKeyEvent usagePair eventType timeStamp =>
    q.emplaceBackKeyEvent usagePair eventType timeStamp
  | .emplaceBackPointingInput pointingInput eventType timeStamp =>
    q.emplaceBackPointingInput pointingInput eventType timeStamp

/-- A call together with what it did to its time stamp. -/
def step (q : Queue) (c : Call) : Queue × List Adjustment :=
  (q.call c, [⟨c.eventType, q.adjusted c, q.skips c.eventType c.isModifierKeyEvent⟩])

theorem adjusted_eq (q : Queue) (c : Call) :
    q.adjusted c =
      if q.skips c.eventType c.isModifierKeyEvent then c.timeStamp
      else max c.timeStamp (q.lastEventTimeStamp + makeAbsoluteTimeDuration 5) := by
  have hskip : q.adjusted c =
      if (!q.skips c.eventType c.isModifierKeyEvent &&
          c.timeStamp < q.lastEventTimeStamp + makeAbsoluteTimeDuration 5) then
        q.lastEventTimeStamp + makeAbsoluteTimeDuration 5
      else c.timeStamp := rfl
  rw [hskip]
  cases q.skips c.eventType c.isModifierKeyEvent with
  | true => simp
  | false =>
      simp only [Bool.not_false, Bool.true_and, decide_eq_true_eq, Bool.false_eq_true, if_false]
      split_ifs with hlt
      · exact (max_eq_right hlt.le).symm
      · exact (max_eq_left (not_lt.mp hlt)).symm

/-- The report of a call, given the queue after it. -/
def reportOfCall (q : Queue) : Call → Option EventValue
  | .emplaceBackKeyEvent usagePair _ _ => q.reportOf usagePair.usagePage
  | .emplaceBackPointingInput pointingInput _ _ => some (.pointingInput pointingInput)

omit [MachTimebase] in
theorem isSome_reportOfCall (q : Queue) (c : Call) :
    (q.reportOfCall c).isSome = true ↔ c.IsReported := by
  cases c with
  | emplaceBackKeyEvent usagePair eventType timeStamp =>
      constructor
      · intro h
        by_contra hpage
        have hnone : q.reportOf usagePair.usagePage = none := q.reportOf_of_not_mem hpage
        rw [reportOfCall, hnone] at h
        cases h
      · intro hpage
        obtain ⟨value, hvalue, -⟩ := q.exists_reportOf hpage
        rw [reportOfCall, hvalue]
        rfl
  | emplaceBackPointingInput pointingInput eventType timeStamp =>
      exact iff_of_true rfl trivial

omit [MachTimebase] in
/-- A report is appended without a look at the last event. -/
theorem emplaceBackReport_spec (q : Queue) (usagePair : UsagePair) (eventType : EventType)
    (timeStamp : AbsoluteTime) :
    let q' := q.emplaceBackReport usagePair eventType timeStamp
    q'.lastEventType = q.lastEventType ∧ q'.lastEventTimeStamp = q.lastEventTimeStamp := by
  simp only [emplaceBackReport]
  split_ifs <;> exact ⟨rfl, rfl⟩

/-- **What a call does** to the memory of the queue and to its reports. -/
theorem call_spec (q : Queue) (c : Call) :
    (q.call c).lastEventType =
        (if q.skips c.eventType c.isModifierKeyEvent then q.lastEventType else c.eventType) ∧
      (q.call c).lastEventTimeStamp = max q.lastEventTimeStamp (q.adjusted c) ∧
      (q.call c).events =
        q.events ++ ((q.call c).reportOfCall c).toList.map (⟨·, q.adjusted c⟩) := by
  have hmax : (if q.lastEventTimeStamp < q.adjusted c then q.adjusted c
      else q.lastEventTimeStamp) = max q.lastEventTimeStamp (q.adjusted c) := by
    split_ifs with hlt
    · exact (max_eq_right hlt.le).symm
    · exact (max_eq_left (not_lt.mp hlt)).symm
  rw [← hmax]
  cases c with
  | emplaceBackKeyEvent usagePair eventType timeStamp =>
      obtain ⟨htype, htime⟩ := emplaceBackReport_spec (q.adjustTimeStamp timeStamp eventType _).2
        usagePair eventType _
      exact ⟨htype, htime, q.events_emplaceBackKeyEvent usagePair eventType timeStamp⟩
  | emplaceBackPointingInput pointingInput eventType timeStamp => exact ⟨rfl, rfl, rfl⟩

/-! ### A sequence of calls -/

/-- The queue remembers the type of the last event that was not skipped, and the latest of the
adjusted time stamps. -/
structure Remembers (q : Queue) (earlier : List Adjustment) : Prop where
  lastEventType : q.lastEventType = (lastNotSkipped earlier).getD .single
  lastEventTimeStamp :
    q.lastEventTimeStamp = (earlier.map Adjustment.timeStamp).foldl max 0

theorem Remembers.step {q : Queue} {earlier : List Adjustment} (h : q.Remembers earlier)
    (c : Call) : (q.step c).1.Remembers (earlier ++ (q.step c).2) := by
  obtain ⟨htype, htime, -⟩ := q.call_spec c
  constructor
  · rw [Queue.step, htype, lastNotSkipped, List.filter_append]
    cases hskip : q.skips c.eventType c.isModifierKeyEvent with
    | true => simpa [lastNotSkipped] using h.lastEventType
    | false => simp
  · rw [Queue.step, htime, List.map_append, List.foldl_append, ← h.lastEventTimeStamp]
    rfl

theorem remembers_run (calls : List Call) :
    (Machine.run (fun q c => (step q c).1) {} calls).Remembers
      (Machine.outputs step {} calls) := by
  induction calls using List.reverseRecOn with
  | nil => exact ⟨rfl, rfl⟩
  | append_singleton calls c ih =>
      rw [Machine.run_concat, Machine.outputs_concat]
      exact ih.step c

omit [MachTimebase] in
/-- The skipped events, from the history alone. -/
theorem skips_iff {q : Queue} {earlier : List Adjustment}
    (h : q.lastEventType = (lastNotSkipped earlier).getD .single) (c : Call) :
    q.skips c.eventType c.isModifierKeyEvent = true ↔ ¬ IsSpaced earlier c := by
  have hkeyUp : q.lastEventType = .keyUp ↔ lastNotSkipped earlier = some .keyUp := by
    rw [h]
    cases lastNotSkipped earlier <;> simp
  unfold skips IsSpaced
  cases c.eventType with
  | keyDown => simp
  | single => simp
  | keyUp => simp [hkeyUp, and_comm]

omit [HidReport] [MachTimebase] in
theorem le_foldl_max (times : List AbsoluteTime) (start : AbsoluteTime) :
    ∀ t ∈ start :: times, t ≤ times.foldl max start := by
  induction times generalizing start with
  | nil => simp
  | cons time times ih =>
      intro t ht
      have hstart : max start time ≤ times.foldl max (max start time) :=
        ih _ _ List.mem_cons_self
      rcases List.mem_cons.mp ht with rfl | ht
      · exact (le_max_left _ _).trans hstart
      · rcases List.mem_cons.mp ht with rfl | ht
        · exact (le_max_right _ _).trans hstart
        · exact ih _ t (List.mem_cons_of_mem _ ht)

/-! ### The 64 bits of a time stamp -/

/-- Each call moves the latest time stamp by 5 milliseconds at most, or to its own time. -/
theorem lastEventTimeStamp_lt {calls : List Call} {bound : AbsoluteTime} (hbound : 0 < bound)
    (h : ∀ c ∈ calls, c.timeStamp < bound) :
    (Machine.run (fun q c => (step q c).1) {} calls).lastEventTimeStamp <
      bound + calls.length * makeAbsoluteTimeDuration 5 := by
  induction calls using List.reverseRecOn with
  | nil => simpa using hbound
  | append_singleton calls c ih =>
      have hbefore := ih fun c' hc' => h c' (List.mem_append_left _ hc')
      have hc := h c (List.mem_append_right _ (List.mem_singleton_self c))
      have hwait : 0 ≤ makeAbsoluteTimeDuration 5 := makeAbsoluteTimeDuration_nonneg (by decide)
      have hcalls : 0 ≤ calls.length * makeAbsoluteTimeDuration 5 :=
        Int.mul_nonneg (Int.natCast_nonneg _) hwait
      obtain ⟨-, htime, -⟩ :=
        call_spec (Machine.run (fun q c => (step q c).1) {} calls) c
      rw [Machine.run_concat, step, htime, adjusted_eq, List.length_append, List.length_singleton,
        Int.natCast_add, Int.natCast_one, Int.add_mul, Int.one_mul]
      split_ifs
      · exact max_lt (by linarith) (by linarith)
      · exact max_lt (by linarith) (max_lt (by linarith) (by linarith))

/-- **The spacing of the reports.**  At every moment of a sequence of calls on a fresh queue, the
queue knows the latest adjusted time stamp; a spaced event comes 5 milliseconds after all of them,
and not before its own time; any other event keeps its time stamp.  A call appends its report, if
its usage page has one, at the adjusted time stamp.  And the sums fit into 64 bits as long as the
requested time stamps leave room for 5 milliseconds a call. -/
theorem run_spacing (calls : List Call) (c : Call) :
    let q := Machine.run (fun q c => (step q c).1) {} calls
    let earlier := Machine.outputs step {} calls
    q.lastEventTimeStamp = (earlier.map Adjustment.timeStamp).foldl max 0 ∧
      (IsSpaced earlier c → c.timeStamp ≤ q.adjusted c ∧
        ∀ t ∈ 0 :: earlier.map Adjustment.timeStamp,
          t + makeAbsoluteTimeDuration 5 ≤ q.adjusted c) ∧
      (¬ IsSpaced earlier c → q.adjusted c = c.timeStamp) ∧
      (c.IsReported → ∃ value, (q.call c).reportOfCall c = some value ∧
        (q.call c).events = q.events ++ [⟨value, q.adjusted c⟩]) ∧
      (¬ c.IsReported → (q.call c).events = q.events) ∧
      ((∀ c' ∈ calls ++ [c], 0 ≤ c'.timeStamp ∧
          (c'.timeStamp + (calls.length + 1) * makeAbsoluteTimeDuration 5).Fits) →
        (q.lastEventTimeStamp + makeAbsoluteTimeDuration 5).Fits ∧ (q.adjusted c).Fits) := by
  intro q earlier
  have hremembers : q.Remembers earlier := remembers_run calls
  have hskips := skips_iff hremembers.lastEventType c
  obtain ⟨-, -, hevents⟩ := q.call_spec c
  have hreported := (q.call c).isSome_reportOfCall c
  refine ⟨hremembers.lastEventTimeStamp, fun hspaced => ?_, fun hspaced => ?_, fun hpage => ?_,
    fun hpage => ?_, fun hfits => ?_⟩
  · rw [adjusted_eq, if_neg fun hskip => hskips.mp hskip hspaced, hremembers.lastEventTimeStamp]
    refine ⟨le_max_left _ _, fun t ht => le_max_of_le_right ?_⟩
    exact Int.add_le_add_right (le_foldl_max _ _ t ht) _
  · rw [adjusted_eq, if_pos (hskips.mpr hspaced)]
  · obtain ⟨value, hvalue⟩ := Option.isSome_iff_exists.mp (hreported.mpr hpage)
    rw [hvalue] at hevents
    exact ⟨value, hvalue, hevents⟩
  · have hnone : (q.call c).reportOfCall c = none := by
      rw [← Option.not_isSome_iff_eq_none]
      exact fun hsome => hpage (hreported.mp hsome)
    rw [hevents, hnone]
    exact List.append_nil _
  · have hwait : 0 ≤ makeAbsoluteTimeDuration 5 := makeAbsoluteTimeDuration_nonneg (by decide)
    have hcalls : 0 ≤ calls.length * makeAbsoluteTimeDuration 5 :=
      Int.mul_nonneg (Int.natCast_nonneg _) hwait
    simp only [AbsoluteTime.Fits, Int.add_mul, Int.one_mul] at hfits ⊢
    obtain ⟨hc, -, hroom⟩ := hfits c (List.mem_append_right _ (List.mem_singleton_self c))
    have hzero : 0 ≤ q.lastEventTimeStamp :=
      hremembers.lastEventTimeStamp ▸ le_foldl_max _ 0 0 List.mem_cons_self
    let bound : AbsoluteTime :=
      2 ^ 64 - (calls.length * makeAbsoluteTimeDuration 5 + makeAbsoluteTimeDuration 5)
    have hlatest : q.lastEventTimeStamp < bound + calls.length * makeAbsoluteTimeDuration 5 := by
      refine lastEventTimeStamp_lt (by linarith) fun c' hc' => ?_
      obtain ⟨-, -, hroom'⟩ := hfits c' (List.mem_append_left _ hc')
      linarith
    rw [adjusted_eq]
    refine ⟨⟨by linarith, by linarith⟩, ?_⟩
    split_ifs
    · exact ⟨hc, by linarith⟩
    · exact ⟨hc.trans (le_max_left _ _), max_lt (by linarith) (by linarith)⟩

end Karabiner.PostEventToVirtualDevices.Queue
