import Karabiner.Library.Machine
import Mathlib.Data.List.Count
import Mathlib.Data.Nat.Notation
import Mathlib.Logic.Function.Basic

/-!
# The console user

`core/grabber/session_monitor_receiver.hpp`: the grabber learns from the session monitors who is at
the console.  A session monitor reports the user it runs for, and the receiver opens a client to
the monitor so that it notices when the monitor goes away.

The handlers of the messages and of the closed clients run in the dispatcher thread, one at a time.
What they defer is appended to the queue of the dispatcher: the `current_console_user_id_changed`
signals, and the removal of a closed client.

Until a closed client is removed it hides that its user has no client.  A message that makes this
user the console user in the meantime registers none, and then the removal leaves the console user
without a client.

* `Wf` — what the queue says about the clients and the signals, in every reachable state.
* `hasOpenClient_step` — the only step that loses track of the console user.
* `run_tracksConsoleUser` — **the console user is tracked** exactly in the runs without that step.
-/

namespace Karabiner

/-- `uid_t`. -/
abbrev UserId := ℕ

/-- `pqrs::local_datagram::client`, as far as the receiver sees it.  No reconnect interval is set,
so a client that is closed stays so. -/
structure SessionMonitorClient where
  endpointPath : String
  closed : Bool := false
deriving DecidableEq, Repr

namespace SessionMonitorReceiver

/-- A task deferred by `enqueue_to_dispatcher`. -/
inductive Task
  /-- `current_console_user_id_changed` with the value captured by the message handler. -/
  | signalValue (newValue : Option UserId)
  /-- `current_console_user_id_changed` with the value at the time the task runs. -/
  | signalCurrent
  /-- `session_monitor_clients_.erase`. -/
  | erase (uid : UserId)
deriving DecidableEq, Repr

end SessionMonitorReceiver

/-- `session_monitor_receiver`.  The queue holds what the receiver itself has deferred; `signalled`
lists the values that the observers were called with. -/
structure SessionMonitorReceiver where
  currentConsoleUserId : Option UserId := none
  sessionMonitorClients : UserId → Option SessionMonitorClient := fun _ => none
  queue : List SessionMonitorReceiver.Task := []
  signalled : List (Option UserId) := []

namespace SessionMonitorReceiver

/-- `enqueue_to_dispatcher`. -/
def enqueue (s : SessionMonitorReceiver) (task : Task) : SessionMonitorReceiver :=
  { s with queue := s.queue ++ [task] }

/-- `register_session_monitor_client`. -/
def registerSessionMonitorClient (s : SessionMonitorReceiver) (uid : UserId)
    (endpointPath : String) : SessionMonitorReceiver :=
  match s.sessionMonitorClients uid with
  | some _ => s
  | none =>
    { s with
      sessionMonitorClients :=
        Function.update s.sessionMonitorClients uid (some { endpointPath := endpointPath }) }

/-- The `console_user_id_changed` case of the `received` handler, up to the registration. -/
def updateConsoleUserId (s : SessionMonitorReceiver) (uid : UserId) (onConsole : Bool) :
    SessionMonitorReceiver :=
  let newValue :=
    if onConsole then some uid
    else if s.currentConsoleUserId = some uid then none
    else s.currentConsoleUserId
  if s.currentConsoleUserId ≠ newValue then
    { s with currentConsoleUserId := newValue }.enqueue (.signalValue newValue)
  else s

/-- The `console_user_id_changed` case of the `received` handler. -/
def consoleUserIdChanged (s : SessionMonitorReceiver) (uid : UserId) (onConsole : Bool)
    (senderPath : String) : SessionMonitorReceiver :=
  let s := s.updateConsoleUserId uid onConsole
  if senderPath ≠ "" then s.registerSessionMonitorClient uid senderPath else s

/-- The `closed` handler of the client of `uid`. -/
def clientClosed (s : SessionMonitorReceiver) (uid : UserId) : SessionMonitorReceiver :=
  let s :=
    if s.currentConsoleUserId = some uid then
      { s with currentConsoleUserId := none }.enqueue .signalCurrent
    else s
  s.enqueue (.erase uid)

/-- Run a task. -/
def runTask (s : SessionMonitorReceiver) : Task → SessionMonitorReceiver
  | .signalValue newValue => { s with signalled := s.signalled ++ [newValue] }
  | .signalCurrent => { s with signalled := s.signalled ++ [s.currentConsoleUserId] }
  | .erase uid =>
    { s with sessionMonitorClients := Function.update s.sessionMonitorClients uid none }

/-- What happens, in the order of the dispatcher thread. -/
inductive Input
  /-- A session monitor sends `console_user_id_changed`. -/
  | received (uid : UserId) (onConsole : Bool) (senderPath : String)
  /-- The connection of the client of `uid` is lost. -/
  | closed (uid : UserId)
  /-- The first task of the queue runs. -/
  | dispatch
deriving DecidableEq

/-- One step.  Only a client that is registered and not yet closed can close. -/
def step (s : SessionMonitorReceiver) : Input → SessionMonitorReceiver
  | .received uid onConsole senderPath => s.consoleUserIdChanged uid onConsole senderPath
  | .closed uid =>
    match s.sessionMonitorClients uid with
    | some client =>
      if client.closed then s
      else
        { s with
          sessionMonitorClients :=
            Function.update s.sessionMonitorClients uid (some { client with closed := true })
        }.clientClosed uid
    | none => s
  | .dispatch =>
    match s.queue with
    | [] => s
    | task :: queue => { s with queue := queue }.runTask task

/-- The state a sequence of steps leads to. -/
abbrev run (is : List Input) : SessionMonitorReceiver := Machine.run step {} is

/-- Run all the tasks that are queued; none of them queues another. -/
def settle (s : SessionMonitorReceiver) : SessionMonitorReceiver :=
  Machine.run step s (List.replicate s.queue.length .dispatch)

/-! ### What tracking the console user means -/

/-- The console user, if there is one, has a client that is not closed. -/
def HasOpenClient (s : SessionMonitorReceiver) : Prop :=
  ∀ uid, s.currentConsoleUserId = some uid →
    ∃ client, s.sessionMonitorClients uid = some client ∧ client.closed = false

/-- The observers know the console user.  Before the first signal they know of none. -/
def IsSignalled (s : SessionMonitorReceiver) : Prop :=
  s.signalled.getLast?.getD none = s.currentConsoleUserId

/-- The console user has a client whose close will reset the value, and the observers know it. -/
def TracksConsoleUser (s : SessionMonitorReceiver) : Prop := s.HasOpenClient ∧ s.IsSignalled

/-- A message makes `uid` the console user and no client of `uid` will stay: the one it has is
closed and still to be removed, or it has none and the message has no sender path. -/
def LosesTrack (s : SessionMonitorReceiver) : Input → Prop
  | .received uid onConsole senderPath =>
    onConsole = true ∧
      (.erase uid ∈ s.queue ∨ senderPath = "" ∧ s.sessionMonitorClients uid = none)
  | _ => False

/-! ### The queue -/

/-- The value the observers know once all the tasks that are queued have run. -/
def announced (s : SessionMonitorReceiver) : Option UserId :=
  s.queue.foldl
    (fun value task =>
      match task with
      | .signalValue newValue => newValue
      | .signalCurrent => s.currentConsoleUserId
      | .erase _ => value)
    (s.signalled.getLast?.getD none)

/-- How often the entry of a user is still to be removed: once if its client is closed. -/
def removals : Option SessionMonitorClient → ℕ
  | some client => client.closed.toNat
  | none => 0

/-- What the queue says: it removes each closed client once and no other, and the signals to come
end with the console user. -/
structure Wf (s : SessionMonitorReceiver) : Prop where
  count_erase : ∀ uid, s.queue.count (.erase uid) = removals (s.sessionMonitorClients uid)
  announced : s.announced = s.currentConsoleUserId

namespace Wf

variable {s : SessionMonitorReceiver}

/-- Telling the console user keeps the state well-formed. -/
theorem updateConsoleUserId (h : s.Wf) (uid : UserId) (onConsole : Bool) :
    (s.updateConsoleUserId uid onConsole).Wf := by
  unfold SessionMonitorReceiver.updateConsoleUserId
  dsimp only
  split_ifs
  all_goals first
    | exact h
    | exact ⟨fun u => by simpa [enqueue] using h.count_erase u,
        by simp [SessionMonitorReceiver.announced, enqueue]⟩

theorem registerSessionMonitorClient (h : s.Wf) (uid : UserId) (endpointPath : String) :
    (s.registerSessionMonitorClient uid endpointPath).Wf := by
  unfold SessionMonitorReceiver.registerSessionMonitorClient
  cases hclient : s.sessionMonitorClients uid with
  | some client => exact h
  | none =>
      refine ⟨fun u => ?_, h.announced⟩
      by_cases hu : u = uid
      · subst hu
        simpa [hclient, removals] using h.count_erase u
      · simpa [Function.update_of_ne hu] using h.count_erase u

theorem consoleUserIdChanged (h : s.Wf) (uid : UserId) (onConsole : Bool) (senderPath : String) :
    (s.consoleUserIdChanged uid onConsole senderPath).Wf := by
  unfold SessionMonitorReceiver.consoleUserIdChanged
  dsimp only
  split_ifs
  · exact (h.updateConsoleUserId uid onConsole).registerSessionMonitorClient uid senderPath
  · exact h.updateConsoleUserId uid onConsole

/-- A client closes: its removal is the one that is now queued. -/
theorem closed (h : s.Wf) {uid : UserId} {client : SessionMonitorClient}
    (hclient : s.sessionMonitorClients uid = some client) (isOpen : client.closed = false) :
    ({ s with
        sessionMonitorClients :=
          Function.update s.sessionMonitorClients uid (some { client with closed := true })
      }.clientClosed uid).Wf := by
  have hcount (u : UserId) : (s.queue ++ [Task.erase uid]).count (.erase u) =
      removals (Function.update s.sessionMonitorClients uid
        (some { client with closed := true }) u) := by
    by_cases hu : u = uid
    · subst hu
      simpa [hclient, isOpen, removals] using h.count_erase u
    · have hne : Task.erase uid ≠ .erase u := fun heq => hu (Task.erase.inj heq).symm
      simpa [Function.update_of_ne hu, List.count_singleton, hne] using h.count_erase u
  unfold clientClosed
  dsimp only
  split_ifs with hcurrent
  · refine ⟨fun u => Eq.trans ?_ (hcount u), by simp [SessionMonitorReceiver.announced, enqueue]⟩
    simp [enqueue]
  · refine ⟨hcount, ?_⟩
    have hannounced := h.announced
    simp only [SessionMonitorReceiver.announced] at hannounced
    simp [SessionMonitorReceiver.announced, enqueue, hannounced]

/-- The first task runs. -/
theorem runTask {task : Task} {queue : List Task} (h : s.Wf) (hqueue : s.queue = task :: queue) :
    ({ s with queue := queue }.runTask task).Wf := by
  obtain ⟨hcount, hannounced⟩ := h
  simp only [SessionMonitorReceiver.announced, hqueue, List.foldl_cons] at hcount hannounced
  cases task with
  | signalValue newValue =>
      exact ⟨by simpa [SessionMonitorReceiver.runTask] using hcount,
        by simpa [SessionMonitorReceiver.announced, SessionMonitorReceiver.runTask]
          using hannounced⟩
  | signalCurrent =>
      exact ⟨by simpa [SessionMonitorReceiver.runTask] using hcount,
        by simpa [SessionMonitorReceiver.announced, SessionMonitorReceiver.runTask]
          using hannounced⟩
  | erase uid =>
      refine ⟨fun u => ?_, hannounced⟩
      have hu := hcount u
      by_cases heq : u = uid
      · subst heq
        have hle : removals (s.sessionMonitorClients u) ≤ 1 := by
          unfold removals
          split
          · exact Bool.toNat_le _
          · exact Nat.zero_le _
        rw [List.count_cons_self] at hu
        simp only [SessionMonitorReceiver.runTask, Function.update_self, removals]
        omega
      · have hne : Task.erase uid ≠ .erase u := fun h => heq (Task.erase.inj h).symm
        rw [List.count_cons_of_ne hne] at hu
        simpa [SessionMonitorReceiver.runTask, Function.update_of_ne heq] using hu

theorem step (h : s.Wf) (i : Input) : (step s i).Wf := by
  cases i with
  | received uid onConsole senderPath => exact h.consoleUserIdChanged uid onConsole senderPath
  | closed uid =>
      simp only [SessionMonitorReceiver.step]
      cases hclient : s.sessionMonitorClients uid with
      | none => exact h
      | some client =>
          cases hclosed : client.closed with
          | true => simpa [hclosed] using h
          | false => simpa [hclosed] using h.closed hclient hclosed
  | dispatch =>
      simp only [SessionMonitorReceiver.step]
      cases hqueue : s.queue with
      | nil => exact h
      | cons task queue => exact h.runTask hqueue

end Wf

theorem wf_init : ({} : SessionMonitorReceiver).Wf := ⟨fun _ => rfl, rfl⟩

/-- The state stays well-formed. -/
theorem wf_run (is : List Input) : (run is).Wf :=
  Machine.run_invariant (fun _ i h => h.step i) wf_init is

/-- A removal is queued exactly for the closed clients. -/
theorem Wf.erase_mem_iff {s : SessionMonitorReceiver} (h : s.Wf) (uid : UserId) :
    .erase uid ∈ s.queue ↔
      ∃ client, s.sessionMonitorClients uid = some client ∧ client.closed = true := by
  rw [← List.count_pos_iff, h.count_erase]
  cases s.sessionMonitorClients uid with
  | none => simp [removals]
  | some client => cases hclosed : client.closed <;> simp [removals, hclosed]

/-! ### Letting the queue run empty -/

/-- What running the whole queue leads to. -/
structure Settled (s s' : SessionMonitorReceiver) : Prop where
  currentConsoleUserId : s'.currentConsoleUserId = s.currentConsoleUserId
  sessionMonitorClients : ∀ uid, s'.sessionMonitorClients uid =
    if .erase uid ∈ s.queue then none else s.sessionMonitorClients uid
  queue : s'.queue = []
  signalled : s'.signalled.getLast?.getD none = s.announced

/-- After the queued functions have run the state is settled. -/
theorem settled_settle (s : SessionMonitorReceiver) : Settled s s.settle := by
  unfold settle
  generalize hqueue : s.queue = queue
  induction queue generalizing s with
  | nil => exact ⟨rfl, by simp [hqueue], hqueue, by simp [announced, hqueue]⟩
  | cons task queue ih =>
      have hstep : step s .dispatch = { s with queue := queue }.runTask task := by
        simp [step, hqueue]
      rw [List.length_cons, List.replicate_succ, Machine.run_cons, hstep]
      have hqueue' : ({ s with queue := queue }.runTask task).queue = queue := by
        cases task <;> rfl
      obtain ⟨hcurrent, hclients, hempty, hsignalled⟩ := ih _ hqueue'
      refine ⟨hcurrent.trans ?_, fun uid => (hclients uid).trans ?_, hempty, hsignalled.trans ?_⟩
      · cases task <;> rfl
      · rw [hqueue', hqueue]
        cases task with
        | signalValue newValue => simp [runTask]
        | signalCurrent => simp [runTask]
        | erase u =>
            by_cases hu : uid = u
            · simp [runTask, hu]
            · simp [runTask, hu]
      · simp only [announced, hqueue, hqueue', List.foldl_cons]
        cases task <;> simp [runTask]

/-- Once the queue is empty, the console user is tracked unless it has no open client now. -/
theorem tracksConsoleUser_settle {s : SessionMonitorReceiver} (h : s.Wf) :
    s.settle.TracksConsoleUser ↔ s.HasOpenClient := by
  obtain ⟨hcurrent, hclients, -, hsignalled⟩ := settled_settle s
  have hsignal : s.settle.IsSignalled := by
    rw [IsSignalled, hsignalled, h.announced, hcurrent]
  rw [TracksConsoleUser, and_iff_left hsignal]
  refine forall_congr' fun uid => ?_
  rw [hcurrent, hclients uid]
  refine imp_congr_right fun _ => ?_
  have herase := h.erase_mem_iff uid
  constructor
  · rintro ⟨client, hclient, hopen⟩
    split_ifs at hclient
    exact ⟨client, hclient, hopen⟩
  · rintro ⟨client, hclient, hopen⟩
    have hnot : .erase uid ∉ s.queue := by
      rw [herase]
      rintro ⟨client', hclient', hclosed⟩
      obtain rfl : client = client' := Option.some.inj (hclient.symm.trans hclient')
      exact absurd hclosed (by simp [hopen])
    exact ⟨client, by rw [if_neg hnot, hclient], hopen⟩

/-! ### The step that loses track -/

/-- A user who is on the console is the current one, and one who leaves it is so no longer. -/
theorem currentConsoleUserId_consoleUserIdChanged (s : SessionMonitorReceiver) (uid : UserId)
    (onConsole : Bool) (senderPath : String) :
    (s.consoleUserIdChanged uid onConsole senderPath).currentConsoleUserId =
      if onConsole then some uid
      else if s.currentConsoleUserId = some uid then none
      else s.currentConsoleUserId := by
  have hregister (s : SessionMonitorReceiver) :
      (s.registerSessionMonitorClient uid senderPath).currentConsoleUserId =
        s.currentConsoleUserId := by
    unfold registerSessionMonitorClient
    split <;> rfl
  have hupdate : (s.updateConsoleUserId uid onConsole).currentConsoleUserId =
      if onConsole then some uid
      else if s.currentConsoleUserId = some uid then none
      else s.currentConsoleUserId := by
    unfold updateConsoleUserId
    dsimp only
    by_cases hsame : s.currentConsoleUserId =
        if onConsole then some uid
        else if s.currentConsoleUserId = some uid then none
        else s.currentConsoleUserId
    · rw [if_neg (not_not.mpr hsame)]
      exact hsame
    · rw [if_pos hsame]
      rfl
  unfold consoleUserIdChanged
  dsimp only
  split_ifs <;> simp_all

/-- After a message its user has the client it had, or a new one if there is a sender path. -/
theorem sessionMonitorClients_consoleUserIdChanged (s : SessionMonitorReceiver) (uid : UserId)
    (onConsole : Bool) (senderPath : String) :
    (s.consoleUserIdChanged uid onConsole senderPath).sessionMonitorClients =
      Function.update s.sessionMonitorClients uid
        ((s.sessionMonitorClients uid).or
          (if senderPath = "" then none else some { endpointPath := senderPath })) := by
  have hupdate : (s.updateConsoleUserId uid onConsole).sessionMonitorClients =
      s.sessionMonitorClients := by
    unfold updateConsoleUserId
    dsimp only
    split_ifs <;> rfl
  have hself (client : Option SessionMonitorClient) (h : s.sessionMonitorClients uid = client) :
      s.sessionMonitorClients = Function.update s.sessionMonitorClients uid client := by
    rw [← h, Function.update_eq_self]
  unfold consoleUserIdChanged
  dsimp only
  by_cases path : senderPath = ""
  · rw [if_neg (not_not.mpr path), if_pos path, Option.or_none, hupdate]
    exact hself _ rfl
  · rw [if_pos path, if_neg path, registerSessionMonitorClient, hupdate]
    cases hclient : s.sessionMonitorClients uid with
    | none => simp
    | some client => exact hupdate.trans (hself _ hclient)

/-- A message keeps a client open unless it loses track of the user. -/
theorem hasOpenClient_received {s : SessionMonitorReceiver} (wf : s.Wf) (h : s.HasOpenClient)
    (uid : UserId) (onConsole : Bool) (senderPath : String) :
    (s.consoleUserIdChanged uid onConsole senderPath).HasOpenClient ↔
      ¬ s.LosesTrack (.received uid onConsole senderPath) := by
  simp only [HasOpenClient, LosesTrack]
  rw [currentConsoleUserId_consoleUserIdChanged, sessionMonitorClients_consoleUserIdChanged,
    wf.erase_mem_iff]
  cases onConsole with
  | true =>
      cases hclient : s.sessionMonitorClients uid with
      | some client => simp
      | none => by_cases path : senderPath = "" <;> simp [path]
  | false =>
      simp only [Bool.false_eq_true, if_false, false_and, not_false_eq_true, iff_true]
      intro u hu
      split_ifs at hu with hcurrent
      have hne : u ≠ uid := by
        rintro rfl
        exact hcurrent hu
      rw [Function.update_of_ne hne]
      exact h u hu

/-- A closed client is noted, so that its user still has one. -/
theorem hasOpenClient_closed {s : SessionMonitorReceiver} (h : s.HasOpenClient) (uid : UserId) :
    (step s (.closed uid)).HasOpenClient := by
  simp only [step]
  cases hclient : s.sessionMonitorClients uid with
  | none => exact h
  | some client =>
      cases hclosed : client.closed with
      | true => simpa [hclosed] using h
      | false =>
          intro u hu
          simp only [hclosed, Bool.false_eq_true, if_false, clientClosed, enqueue] at hu ⊢
          split_ifs at hu ⊢ with hcurrent
          have hne : u ≠ uid := by
            rintro rfl
            exact hcurrent hu
          simpa [Function.update_of_ne hne] using h u hu

/-- A queued function keeps a client open. -/
theorem hasOpenClient_dispatch {s : SessionMonitorReceiver} (wf : s.Wf) (h : s.HasOpenClient) :
    (step s .dispatch).HasOpenClient := by
  simp only [step]
  cases hqueue : s.queue with
  | nil => exact h
  | cons task queue =>
      cases task with
      | signalValue newValue => exact h
      | signalCurrent => exact h
      | erase u =>
          intro uid huid
          obtain ⟨client, hclient, hopen⟩ := h uid huid
          have hne : uid ≠ u := by
            rintro rfl
            obtain ⟨client', hclient', hclosed⟩ := (wf.erase_mem_iff uid).mp (by simp [hqueue])
            obtain rfl : client = client' := Option.some.inj (hclient.symm.trans hclient')
            exact absurd hclosed (by simp [hopen])
          exact ⟨client, by simpa [runTask, Function.update_of_ne hne] using hclient, hopen⟩

/-- **The step that loses track**: every other step keeps an open client of the console user. -/
theorem hasOpenClient_step {s : SessionMonitorReceiver} (wf : s.Wf) (h : s.HasOpenClient)
    (i : Input) : (step s i).HasOpenClient ↔ ¬ s.LosesTrack i := by
  cases i with
  | received uid onConsole senderPath => exact hasOpenClient_received wf h uid onConsole senderPath
  | closed uid => exact iff_of_true (hasOpenClient_closed h uid) not_false
  | dispatch => exact iff_of_true (hasOpenClient_dispatch wf h) not_false

/-- A client is open all along a run exactly if no step loses track. -/
theorem hasOpenClient_run (is : List Input) :
    (∀ before after, is = before ++ after → (run before).HasOpenClient) ↔
      Machine.Steps step (fun s i => ¬ s.LosesTrack i) {} is :=
  @Machine.steps_iff _ _ _ _ _ Wf (fun _ i wf _ => wf.step i)
    (fun _ i wf h => hasOpenClient_step wf h i) _ wf_init (fun _ h => by cases h) is

/-- **The console user is tracked** in every run none of whose messages makes a user the console
user while the closed client of that user is still to be removed: whenever the queue is empty, the
console user has an open client and the observers know the console user.  In any other run, this
fails after the message, once the queue has run empty. -/
theorem run_tracksConsoleUser (is : List Input) :
    (Machine.Steps step (fun s i => ¬ s.LosesTrack i) {} is →
      ∀ before after, is = before ++ after → (run before).queue = [] →
        (run before).TracksConsoleUser) ∧
    ((∀ before after, is = before ++ after → (run before).settle.TracksConsoleUser) ↔
      Machine.Steps step (fun s i => ¬ s.LosesTrack i) {} is) := by
  constructor
  · intro ok before after h hempty
    have hsettle : (run before).settle = run before := by
      rw [settle, hempty]
      rfl
    have hopen := (hasOpenClient_run is).mpr ok before after h
    rwa [← tracksConsoleUser_settle (wf_run before), hsettle] at hopen
  · rw [← hasOpenClient_run is]
    exact forall₃_congr fun before _ _ => tracksConsoleUser_settle (wf_run before)

/-- A user logs out and in again, the queue running empty in between. -/
theorem run_tracksConsoleUser_logout :
    (run [.received 501 true "a", .dispatch, .received 501 false "a", .dispatch, .closed 501,
      .dispatch, .received 501 true "b", .dispatch]).TracksConsoleUser := by
  let is : List Input := [.received 501 true "a", .dispatch, .received 501 false "a", .dispatch,
    .closed 501, .dispatch, .received 501 true "b", .dispatch]
  have ok : Machine.Steps step (fun s i => ¬ s.LosesTrack i) {} is := by
    refine ⟨fun h => ?_, id, fun h => ?_, id, id, id, fun h => ?_, id, trivial⟩
    · exact absurd h.2 (by decide)
    · exact absurd h.1 (by decide)
    · exact absurd h.2 (by decide)
  exact (run_tracksConsoleUser is).1 ok is [] (List.append_nil is).symm (by decide)

/-- **A message can overtake the removal of the closed client.**  The client of user 501 closes, and
before its removal runs the user is reported again. -/
theorem not_tracksConsoleUser :
    let is : List Input := [.received 501 true "a", .dispatch, .closed 501,
      .received 501 true "b", .dispatch, .dispatch, .dispatch]
    (run is).queue = [] ∧ (run is).currentConsoleUserId = some 501 ∧
      (run is).sessionMonitorClients 501 = none ∧ ¬ (run is).TracksConsoleUser := by
  intro is
  have hcurrent : (run is).currentConsoleUserId = some 501 := by decide
  have hclient : (run is).sessionMonitorClients 501 = none := by decide
  refine ⟨by decide, hcurrent, hclient, fun h => ?_⟩
  obtain ⟨client, hsome, -⟩ := h.1 501 hcurrent
  exact absurd (hclient.symm.trans hsome) (by simp)

/-- The observers always know the console user once the queue is empty. -/
theorem isSignalled_run {is : List Input} (hempty : (run is).queue = []) :
    (run is).IsSignalled := by
  have hannounced := (wf_run is).announced
  rwa [announced, hempty] at hannounced

end SessionMonitorReceiver

end Karabiner
