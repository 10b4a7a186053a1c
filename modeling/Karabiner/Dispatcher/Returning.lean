import Karabiner.Dispatcher.Dispatcher

/-!
# Whether `detach` returns

`detach` waits for the worker thread twice: for the end of a function of the object, and, if it was
given a function, for the end of that one.  The first wait always ends, since the worker thread
revokes what it has announced.  The second ends if the worker thread runs the function.  `terminate`
stops the worker thread before it takes another one out of the queue, and `detach` looks at `exit_`
before it enqueues the function, under a lock that it releases in between.

* `Sound` — what holds in every reachable state.
* `Abandoned.step` — if `terminate` comes in between, `detach` never returns.
* `returns_unless_abandoned` — **otherwise it can always return**.
-/

set_option linter.dupNamespace false

namespace Karabiner.Dispatcher.Dispatcher

variable {τ φ : Type}

/-! ### What is under way -/

/-- The entry that the worker thread has taken and not finished. -/
def inService (s : Dispatcher τ φ) : List (Entry φ) :=
  match s.worker with
  | .taken e | .announced e | .calling e => [e]
  | .waiting | .called _ | .exited => []

/-- The entries that are not finished. -/
def pending (s : Dispatcher τ φ) : List (Entry φ) := s.inService ++ s.queue

/-- The function with this number, which `detach` has enqueued, has returned or is still to run. -/
structure Served (s : Dispatcher τ φ) (serial : ℕ) : Prop where
  returned_or_pending : serial ∈ s.returned ∨ ∃ e ∈ s.pending, e.serial = serial
  internal : ∀ e ∈ s.pending, e.serial = serial →
    e.objectIdValue = none ∧ e.when = whenInternalDetached

/-- What holds in every reachable state. -/
structure Sound (s : Dispatcher τ φ) : Prop where
  running : s.RunningSound
  exit : s.worker = .exited → s.exit = true
  calling : ∀ detach, s.detaching .worker = some detach → s.isCalling = true
  waitNotice : ∀ objectId serial, s.detaching .worker ≠ some ⟨objectId, .waitNotice serial⟩
  /-- Functions of `detach` are due at once. -/
  front : s.queue.Pairwise fun x y =>
    y.when = whenInternalDetached → x.when ≤ whenInternalDetached
  freshReturned : ∀ serial ∈ s.returned, serial < s.nextSerial
  freshPending : ∀ e ∈ s.pending, e.serial < s.nextSerial
  served : ∀ t objectId serial, s.detaching t = some ⟨objectId, .waitNotice serial⟩ →
    s.Served serial

/-- The sorted insertion inserts the entry and loses none. -/
theorem mem_insertEntry {e x : Entry φ} {queue : List (Entry φ)} :
    x ∈ insertEntry e queue ↔ x = e ∨ x ∈ queue := by
  obtain ⟨before, after, rfl, hinsert, -, -⟩ := exists_insertEntry e queue
  rw [hinsert]
  simp only [List.mem_append, List.mem_cons]
  tauto

theorem mem_pending_enqueue {s : Dispatcher τ φ} {objectId : Option ℕ} {function : φ} {when : ℤ}
    {x : Entry φ} : x ∈ (s.enqueue objectId function when).pending ↔
      x = ⟨s.nextSerial, objectId, function, when⟩ ∨ x ∈ s.pending := by
  show x ∈ s.inService ++ insertEntry _ s.queue ↔ _ ∨ x ∈ s.inService ++ s.queue
  rw [List.mem_append, mem_insertEntry, List.mem_append]
  tauto

/-- The entries of `detach` stay in front of the queue. -/
theorem front_insertEntry {queue : List (Entry φ)}
    (h : queue.Pairwise fun x y => y.when = whenInternalDetached → x.when ≤ whenInternalDetached)
    (e : Entry φ) : (insertEntry e queue).Pairwise fun x y =>
      y.when = whenInternalDetached → x.when ≤ whenInternalDetached := by
  obtain ⟨before, after, rfl, hinsert, hafter, hbefore⟩ := exists_insertEntry e queue
  rw [hinsert]
  refine TimedQueue.pairwise_between h (fun x hx hinternal => ?_) fun y hy hinternal => ?_
  · rw [hbefore hinternal] at hx
    exact absurd hx List.not_mem_nil
  · rcases hafter y hy with he | hlt
    · exact he.le
    · exact (hlt.trans_eq hinternal).le

/-! ### It holds in every reachable state -/

/-- What the worker thread does to the entries that are not finished: nothing, or it finishes the
first of them, which it skips only if that is a function of a client. -/
theorem pending_workerNext (s : Dispatcher τ φ) :
    s.workerNext.pending = s.pending ∧ s.workerNext.returned = s.returned ∨
    ∃ e ∈ s.inService, s.pending = e :: s.workerNext.pending ∧
      (s.workerNext.returned = e.serial :: s.returned ∨
        s.workerNext.returned = s.returned ∧ e.objectIdValue ≠ none) := by
  rcases s.workerNext_cases with h | ⟨hworker, -, h⟩ | ⟨e, queue, hworker, -, hqueue, h⟩ |
    ⟨e, hworker, h⟩ | ⟨e, hworker, -, h⟩ | ⟨e, hworker, hattached, h⟩ | ⟨e, hworker, -, h⟩ |
    ⟨e, hworker, h⟩ <;> rw [h]
  · exact .inl ⟨rfl, rfl⟩
  · exact .inl ⟨by simp [pending, inService, hworker], rfl⟩
  · exact .inl ⟨by simp [pending, inService, hworker, hqueue], rfl⟩
  · exact .inl ⟨by simp [pending, inService, hworker], rfl⟩
  · exact .inl ⟨by simp [pending, inService, hworker], rfl⟩
  · refine .inr ⟨e, by simp [inService, hworker], by simp [pending, inService, hworker],
      .inr ⟨rfl, fun hnone => hattached ?_⟩⟩
    rw [hnone]
    exact nofun
  · exact .inr ⟨e, by simp [inService, hworker], by simp [pending, inService, hworker], .inl rfl⟩
  · exact .inl ⟨by simp [pending, inService, hworker], rfl⟩

section

variable {s : Dispatcher τ φ} {serial : ℕ}

/-- A step of the worker does not lose the function of a `detach`. -/
theorem Served.workerNext (h : s.Served serial) : s.workerNext.Served serial := by
  rcases s.pending_workerNext with ⟨hpending, hreturned⟩ | ⟨e, -, hpending, hreturned⟩
  · constructor
    · rw [hpending, hreturned]
      exact h.returned_or_pending
    · rw [hpending]
      exact h.internal
  · refine ⟨?_, fun x hx => h.internal x (by rw [hpending]; exact List.mem_cons_of_mem _ hx)⟩
    rcases h.returned_or_pending with hmem | ⟨x, hx, hserial⟩
    · rcases hreturned with hreturned | ⟨hreturned, -⟩ <;> rw [hreturned]
      · exact .inl (List.mem_cons_of_mem _ hmem)
      · exact .inl hmem
    · rw [hpending] at hx
      rcases List.mem_cons.mp hx with rfl | hx
      · rcases hreturned with hreturned | ⟨-, hclient⟩
        · rw [hreturned, ← hserial]
          exact .inl List.mem_cons_self
        · have hinternal := h.internal x (by rw [hpending]; exact List.mem_cons_self) hserial
          exact absurd hinternal.1 hclient
      · exact .inr ⟨x, hx, hserial⟩

/-- A new entry has a number of its own. -/
theorem Served.enqueue (h : s.Served serial) (hserial : serial < s.nextSerial)
    (objectId : Option ℕ) (function : φ) (when : ℤ) :
    (s.enqueue objectId function when).Served serial := by
  refine ⟨h.returned_or_pending.imp_right ?_, fun x hx heq => ?_⟩
  · rintro ⟨x, hx, heq⟩
    exact ⟨x, mem_pending_enqueue.mpr (.inr hx), heq⟩
  · rcases mem_pending_enqueue.mp hx with rfl | hx
    · exact absurd heq hserial.ne'
    · exact h.internal x hx heq

/-- Erasing the entries of an object takes only those that are still queued. -/
theorem mem_pending_eraseEntries {objectId : ℕ} {x : Entry φ} :
    x ∈ ({ s with queue := s.queue.filter fun e => e.objectIdValue ≠ some objectId } :
      Dispatcher τ φ).pending ↔
      x ∈ s.inService ∨ x ∈ s.queue ∧ x.objectIdValue ≠ some objectId := by
  show x ∈ s.inService ++ List.filter _ s.queue ↔ _
  rw [List.mem_append, List.mem_filter, decide_eq_true_iff]

/-- The function of a `detach` belongs to no object, so that it stays. -/
theorem Served.eraseEntries (h : s.Served serial) (objectId : ℕ) :
    ({ s with queue := s.queue.filter fun e => e.objectIdValue ≠ some objectId } :
      Dispatcher τ φ).Served serial := by
  refine ⟨h.returned_or_pending.imp_right ?_, fun x hx heq => ?_⟩
  · rintro ⟨x, hx, heq⟩
    refine ⟨x, mem_pending_eraseEntries.mpr ?_, heq⟩
    have hnone : x.objectIdValue ≠ some objectId := by
      rw [(h.internal x hx heq).1]
      exact nofun
    exact (List.mem_append.mp hx).imp_right fun hx => ⟨hx, hnone⟩
  · refine h.internal x ?_ heq
    exact List.mem_append.mpr ((mem_pending_eraseEntries.mp hx).imp_right And.left)

/-- The function of a `detach` has a number that has been given. -/
theorem Served.lt (h : s.Sound) (hserved : s.Served serial) : serial < s.nextSerial := by
  rcases hserved.returned_or_pending with hmem | ⟨e, he, rfl⟩
  · exact h.freshReturned serial hmem
  · exact h.freshPending e he

/-- The function of `detach` that is enqueued is served. -/
theorem Sound.served_enqueue (h : s.Sound) (function : φ) :
    (s.enqueue none function whenInternalDetached).Served s.nextSerial := by
  refine ⟨.inr ⟨_, mem_pending_enqueue.mpr (.inl rfl), rfl⟩, fun x hx heq => ?_⟩
  rcases mem_pending_enqueue.mp hx with rfl | hx
  · exact ⟨rfl, rfl⟩
  · exact absurd heq (h.freshPending x hx).ne

theorem Sound.enqueue (h : s.Sound) (objectId : Option ℕ) (function : φ) (when : ℤ) :
    (s.enqueue objectId function when).Sound where
  running := h.running
  exit := h.exit
  calling := h.calling
  waitNotice := h.waitNotice
  front := front_insertEntry h.front _
  freshReturned n hn := (h.freshReturned n hn).trans (Nat.lt_succ_self _)
  freshPending e he := by
    rcases mem_pending_enqueue.mp he with rfl | he
    · exact Nat.lt_succ_self _
    · exact (h.freshPending e he).trans (Nat.lt_succ_self _)
  served t objectId n hdetaching :=
    have hserved := h.served t objectId n hdetaching
    hserved.enqueue (hserved.lt h) _ _ _

theorem Sound.eraseEntries (h : s.Sound) (objectId : ℕ) :
    ({ s with queue := s.queue.filter fun e => e.objectIdValue ≠ some objectId } :
      Dispatcher τ φ).Sound where
  running := h.running
  exit := h.exit
  calling := h.calling
  waitNotice := h.waitNotice
  front := h.front.sublist List.filter_sublist
  freshReturned := h.freshReturned
  freshPending e he := h.freshPending e
    (List.mem_append.mpr ((mem_pending_eraseEntries.mp he).imp_right And.left))
  served t objectId n hdetaching := (h.served t objectId n hdetaching).eraseEntries _

/-- Another set of attached objects. -/
theorem Sound.withObjectIds (h : s.Sound) (objectIds : Finset ℕ) : { s with objectIds }.Sound where
  running := h.running
  exit := h.exit
  calling := h.calling
  waitNotice := h.waitNotice
  front := h.front
  freshReturned := h.freshReturned
  freshPending := h.freshPending
  served t objectId n hdetaching :=
    ⟨(h.served t objectId n hdetaching).1, (h.served t objectId n hdetaching).2⟩

variable [DecidableEq τ]

/-- A thread takes up or leaves a `detach`, and waits only for what is served. -/
theorem Sound.setDetaching (h : s.Sound) {t : Thread τ} {detach : Option (Detach φ)}
    (hcalling : ∀ d, detach = some d → t = .worker → s.isCalling = true)
    (hserved : ∀ objectId n, detach = some ⟨objectId, .waitNotice n⟩ →
      t ≠ .worker ∧ s.Served n) : (s.setDetaching t detach).Sound where
  running := h.running
  exit := h.exit
  calling d hd := by
    by_cases ht : Thread.worker = t
    · subst ht
      rw [detaching_setDetaching_self] at hd
      exact hcalling d hd rfl
    · rw [detaching_setDetaching_of_ne ht] at hd
      exact h.calling d hd
  waitNotice objectId n := by
    by_cases ht : Thread.worker = t
    · subst ht
      rw [detaching_setDetaching_self]
      exact fun hd => (hserved objectId n hd).1 rfl
    · rw [detaching_setDetaching_of_ne ht]
      exact h.waitNotice objectId n
  front := h.front
  freshReturned := h.freshReturned
  freshPending := h.freshPending
  served t' objectId n hd := by
    have hbefore : s.Served n := by
      by_cases ht : t' = t
      · subst ht
        rw [detaching_setDetaching_self] at hd
        exact (hserved objectId n hd).2
      · rw [detaching_setDetaching_of_ne ht] at hd
        exact h.served t' objectId n hd
    exact ⟨hbefore.1, hbefore.2⟩

/-- The next step of a `detach`. -/
theorem Sound.detachNext (h : s.Sound) (t : Thread τ) : (s.detachNext t).Sound := by
  have hcalling (d : Detach φ) (hd : s.detaching t = some d) (ht : t = .worker) :
      s.isCalling = true := by
    subst ht
    exact h.calling d hd
  rcases s.detachNext_cases t with heq | ⟨objectId, function, hd, heq⟩ |
    ⟨objectId, function, hd, -, heq⟩ | ⟨objectId, function, hd, heq⟩ |
    ⟨objectId, function, hd, -, heq⟩ | ⟨objectId, function, hd, ht, heq⟩ |
    ⟨objectId, serial, hd, -, heq⟩ <;> rw [heq]
  · exact h
  · exact (h.eraseEntries objectId).setDetaching (fun _ _ => hcalling _ hd) nofun
  · refine h.setDetaching (fun _ _ => hcalling _ hd) fun _ _ hnotice => ?_
    obtain ⟨_, -, hphase⟩ := Option.map_eq_some_iff.mp hnotice
    exact absurd (congrArg Detach.phase hphase) nofun
  · refine h.setDetaching (fun _ _ => hcalling _ hd) fun _ _ hnotice => ?_
    split_ifs at hnotice
    exact absurd (congrArg Detach.phase (Option.some.inj hnotice)) nofun
  · exact h.setDetaching nofun nofun
  · refine (h.enqueue none function whenInternalDetached).setDetaching
      (fun _ _ hworker => absurd hworker ht) fun _ n hnotice => ⟨ht, ?_⟩
    obtain rfl : s.nextSerial = n :=
      DetachPhase.waitNotice.inj (congrArg Detach.phase (Option.some.inj hnotice))
    exact h.served_enqueue function
  · exact h.setDetaching nofun nofun

omit [DecidableEq τ] in
/-- The worker takes from the front, so that the order of the rest stays. -/
theorem Sound.front_workerNext (h : s.Sound) : s.workerNext.queue.Pairwise fun x y =>
    y.when = whenInternalDetached → x.when ≤ whenInternalDetached := by
  have hfront := h.front
  rcases s.workerNext_cases with heq | ⟨-, -, heq⟩ | ⟨e, queue, -, -, hqueue, heq⟩ | ⟨_, -, heq⟩ |
    ⟨_, -, -, heq⟩ | ⟨_, -, -, heq⟩ | ⟨_, -, -, heq⟩ | ⟨_, -, heq⟩ <;> rw [heq]
  case inr.inr.inl =>
    rw [hqueue] at hfront
    exact (List.pairwise_cons.mp hfront).2
  all_goals exact hfront

omit [DecidableEq τ] in
@[simp] theorem nextSerial_workerNext (s : Dispatcher τ φ) :
    s.workerNext.nextSerial = s.nextSerial := by
  rcases s.workerNext_cases with h | ⟨-, -, h⟩ | ⟨_, _, -, -, -, h⟩ | ⟨_, -, h⟩ | ⟨_, -, -, h⟩ |
    ⟨_, -, -, h⟩ | ⟨_, -, -, h⟩ | ⟨_, -, h⟩ <;> rw [h]

omit [DecidableEq τ] in
/-- While the worker thread is in `detach`, it does not leave the function. -/
theorem Sound.workerNext_eq_self (h : s.Sound) {detach : Detach φ}
    (hdetaching : s.detaching .worker = some detach) : s.workerNext = s := by
  have hcalling := h.calling detach hdetaching
  unfold isCalling at hcalling
  unfold workerNext
  split at hcalling
  case h_1 e hworker =>
    rw [hworker]
    exact if_pos (by rw [hdetaching]; rfl)
  case h_2 => exact absurd hcalling nofun

/-- The next step of the worker. -/
theorem Sound.workerNext (h : s.Sound) : s.workerNext.Sound where
  running := h.running.step .workerNext
  exit := by
    intro hexited
    rw [exit_workerNext]
    rcases s.workerNext_cases with heq | ⟨-, hexit, -⟩ | ⟨_, _, -, -, -, heq⟩ | ⟨_, -, heq⟩ |
      ⟨_, -, -, heq⟩ | ⟨_, -, -, heq⟩ | ⟨_, -, -, heq⟩ | ⟨_, -, heq⟩
    · exact h.exit (heq ▸ hexited)
    · exact hexit
    all_goals exact absurd (heq ▸ hexited) nofun
  calling detach hdetaching := by
    rw [detaching_workerNext] at hdetaching
    rw [h.workerNext_eq_self hdetaching]
    exact h.calling detach hdetaching
  waitNotice objectId n := by
    rw [detaching_workerNext]
    exact h.waitNotice objectId n
  front := h.front_workerNext
  freshReturned n hn := by
    rw [nextSerial_workerNext]
    rcases s.pending_workerNext with ⟨-, hreturned⟩ | ⟨e, he, -, hreturned | ⟨hreturned, -⟩⟩ <;>
      rw [hreturned] at hn
    · exact h.freshReturned n hn
    · rcases List.mem_cons.mp hn with rfl | hn
      · exact h.freshPending e (List.mem_append_left _ he)
      · exact h.freshReturned n hn
    · exact h.freshReturned n hn
  freshPending e he := by
    rw [nextSerial_workerNext]
    rcases s.pending_workerNext with ⟨hpending, -⟩ | ⟨x, -, hpending, -⟩
    · exact h.freshPending e (hpending ▸ he)
    · exact h.freshPending e (by rw [hpending]; exact List.mem_cons_of_mem _ he)
  served t objectId n hdetaching := by
    rw [detaching_workerNext] at hdetaching
    exact (h.served t objectId n hdetaching).workerNext

/-- No step of any thread leads out of the sound states. -/
theorem Sound.step (h : s.Sound) (i : Input τ φ) : (step s i).Sound := by
  cases i with
  | clock now =>
      exact ⟨h.running, h.exit, h.calling, h.waitNotice, h.front, h.freshReturned, h.freshPending,
        fun t objectId n hd => ⟨(h.served t objectId n hd).1, (h.served t objectId n hd).2⟩⟩
  | attach objectId => exact h.withObjectIds _
  | enqueue objectId function when => exact h.enqueue _ _ _
  | detach t objectId function =>
      show (s.detach t objectId function).Sound
      rcases s.detach_cases t objectId function with heq | ⟨-, -, hcalling, heq⟩ <;> rw [heq]
      · exact h
      · exact (h.withObjectIds _).setDetaching (fun _ _ => hcalling) nofun
  | detachNext t => exact h.detachNext t
  | workerNext => exact h.workerNext
  | terminate =>
      exact ⟨h.running, fun _ => rfl, h.calling, h.waitNotice, h.front, h.freshReturned,
        h.freshPending,
        fun t objectId n hd => ⟨(h.served t objectId n hd).1, (h.served t objectId n hd).2⟩⟩

end

/-- Every reachable state is sound. -/
theorem sound_run [DecidableEq τ] (objectIds : Finset ℕ) (is : List (Input τ φ)) :
    (run objectIds is).Sound := by
  have hinit : ({ objectIds } : Dispatcher τ φ).Sound :=
    ⟨rfl, nofun, nofun, nofun, .nil, nofun, nofun, nofun⟩
  have hkeep : ∀ (s : Dispatcher τ φ) i, s.Sound → (Dispatcher.step s i).Sound :=
    fun _ i h => h.step i
  exact @Machine.run_invariant _ _ Dispatcher.step Sound hkeep _ hinit is

/-! ### When `detach` cannot return -/

/-- **The dispatcher terminates, and the function of this `detach` will not be taken**: it is not
yet in the queue, although the look at `exit_` is over, or it is there. -/
structure Abandoned (s : Dispatcher τ φ) (t : τ) : Prop where
  exit : s.exit = true
  waits : (∃ objectId function, s.detaching (.other t) = some ⟨objectId, .execute function⟩) ∨
    ∃ objectId serial, s.detaching (.other t) = some ⟨objectId, .waitNotice serial⟩ ∧
      serial ∉ s.returned ∧ ∀ e ∈ s.inService, e.serial ≠ serial

section

variable {s : Dispatcher τ φ} {t : τ}

/-- A worker thread that has to exit takes no other entry. -/
theorem inService_workerNext_of_exit (hexit : s.exit = true) {e : Entry φ}
    (he : e ∈ s.workerNext.inService) : e ∈ s.inService := by
  rcases s.workerNext_cases with heq | ⟨-, -, heq⟩ | ⟨_, _, -, hrunning, -, -⟩ |
    ⟨x, hworker, heq⟩ | ⟨x, hworker, -, heq⟩ | ⟨_, -, -, heq⟩ | ⟨_, -, -, heq⟩ | ⟨_, -, heq⟩
  · rwa [heq] at he
  · rw [heq] at he
    exact absurd he List.not_mem_nil
  · exact absurd (hexit.symm.trans hrunning) nofun
  · rw [heq] at he
    simpa [inService, hworker] using he
  · rw [heq] at he
    simpa [inService, hworker] using he
  all_goals
    rw [heq] at he
    exact absurd he List.not_mem_nil

/-- The worker does not take a function after `exit_` has been set. -/
theorem Abandoned.workerNext (h : s.Abandoned t) : s.workerNext.Abandoned t := by
  refine ⟨(exit_workerNext s).trans h.exit, ?_⟩
  rw [detaching_workerNext]
  rcases h.waits with hexecute | ⟨objectId, serial, hnotice, hreturned, hservice⟩
  · exact .inl hexecute
  · refine .inr ⟨objectId, serial, hnotice, ?_, fun e he =>
      hservice e (inService_workerNext_of_exit h.exit he)⟩
    rcases s.pending_workerNext with ⟨-, heq⟩ | ⟨e, he, -, heq | ⟨heq, -⟩⟩ <;> rw [heq]
    · exact hreturned
    · exact fun hmem => (List.mem_cons.mp hmem).elim (fun heq => hservice e he heq.symm) hreturned
    · exact hreturned

variable [DecidableEq τ]

omit [DecidableEq τ] in
/-- What the steps of other threads leave alone. -/
theorem Abandoned.congr (h : s.Abandoned t) {s' : Dispatcher τ φ} (hexit : s'.exit = true)
    (hdetaching : s'.detaching (.other t) = s.detaching (.other t)) (hworker : s'.worker = s.worker)
    (hreturned : s'.returned = s.returned) : s'.Abandoned t := by
  refine ⟨hexit, ?_⟩
  rw [hdetaching, hreturned, inService, hworker]
  exact h.waits

/-- **A `detach` that is abandoned stays so**, whatever happens. -/
theorem Abandoned.step (hsound : s.Sound) (h : s.Abandoned t) (i : Input τ φ) :
    (step s i).Abandoned t := by
  cases i with
  | clock | attach | enqueue => exact h.congr h.exit rfl rfl rfl
  | terminate => exact h.congr rfl rfl rfl rfl
  | detach t' objectId function =>
      show (s.detach t' objectId function).Abandoned t
      rcases s.detach_cases t' objectId function with heq | ⟨hfree, -, -, heq⟩ <;> rw [heq]
      · exact h
      · have hne : Thread.other t ≠ t' := by
          rintro rfl
          rcases h.waits with ⟨_, _, hbusy⟩ | ⟨_, _, hbusy, -⟩ <;>
            exact Option.some_ne_none _ (hbusy.symm.trans hfree)
        exact h.congr h.exit (detaching_setDetaching_of_ne hne _ _) rfl rfl
  | detachNext t' =>
      show (s.detachNext t').Abandoned t
      by_cases ht : Thread.other t = t'
      · subst ht
        rcases h.waits with ⟨objectId, function, hexecute⟩ |
          ⟨objectId, serial, hnotice, hreturned, -⟩
        · have heq : s.detachNext (.other t) =
              (s.enqueue none function whenInternalDetached).setDetaching (.other t)
                (some ⟨objectId, .waitNotice s.nextSerial⟩) := by
            rw [Dispatcher.detachNext, hexecute]
            exact if_neg (Thread.other_ne_worker t)
          rw [heq]
          refine ⟨h.exit, .inr ⟨objectId, s.nextSerial, detaching_setDetaching_self .., ?_, ?_⟩⟩
          · exact fun hmem => (hsound.freshReturned _ hmem).false
          · exact fun e he => (hsound.freshPending e (List.mem_append_left _ he)).ne
        · have heq : s.detachNext (.other t) = s := by
            rw [Dispatcher.detachNext, hnotice]
            exact if_neg hreturned
          rw [heq]
          exact h
      · exact h.congr ((exit_detachNext t' s).trans h.exit) (detaching_detachNext_of_ne ht s)
          (worker_detachNext t' s) (returned_detachNext t' s)
  | workerNext => exact h.workerNext

omit [DecidableEq τ] in
/-- It has not returned. -/
theorem Abandoned.detaching_ne_none (h : s.Abandoned t) : s.detaching (.other t) ≠ none := by
  rcases h.waits with ⟨_, _, hbusy⟩ | ⟨_, _, hbusy, -⟩ <;> rw [hbusy] <;> exact nofun

/-! ### When it can -/

/-- How many steps of its own a thread has still to do. -/
def phaseRank : Option (Detach φ) → ℕ
  | none => 0
  | some ⟨_, .waitNotice _⟩ => 1
  | some ⟨_, .execute _⟩ => 2
  | some ⟨_, .checkExit _⟩ => 3
  | some ⟨_, .wait _⟩ => 4
  | some ⟨_, .eraseEntries _⟩ => 5

/-- How far the worker thread is from its next look at the queue. -/
def workerRank : Worker φ → ℕ
  | .waiting | .exited => 0
  | .called _ => 1
  | .calling _ => 2
  | .announced _ => 3
  | .taken _ => 4

/-- What the worker thread has still to do. -/
def work (s : Dispatcher τ φ) : ℕ :=
  30 * s.queue.length + 6 * workerRank s.worker + phaseRank (s.detaching .worker)

/-- **A thread that does not have to wait goes on.** -/
theorem phaseRank_detachNext {t : Thread τ} {detach : Detach φ}
    (hdetaching : s.detaching t = some detach)
    (hwait : t ≠ .worker → ∀ function, detach.phase = .wait function →
      s.runningFunctionObjectId ≠ some (some detach.objectId))
    (hnotice : ∀ serial, detach.phase = .waitNotice serial → serial ∈ s.returned) :
    phaseRank ((s.detachNext t).detaching t) < phaseRank (s.detaching t) := by
  unfold detachNext
  rw [hdetaching]
  rcases detach with ⟨objectId, function | function | function | function | serial⟩
  · simp [phaseRank]
  · have hgoes : ¬ (t ≠ .worker ∧ s.runningFunctionObjectId = some (some objectId)) :=
      fun h => hwait h.1 function rfl h.2
    dsimp only
    rw [if_neg hgoes, detaching_setDetaching_self]
    cases function <;> simp [phaseRank]
  · dsimp only
    rw [detaching_setDetaching_self]
    split_ifs <;> simp [phaseRank]
  · dsimp only
    split_ifs <;> rw [detaching_setDetaching_self] <;> simp [phaseRank]
  · dsimp only
    rw [if_pos (hnotice serial rfl), detaching_setDetaching_self]
    simp [phaseRank]

/-- A thread that goes on is not abandoned. -/
theorem not_abandoned_detachNext (h : ¬ s.Abandoned t) :
    ¬ (s.detachNext (.other t)).Abandoned t := by
  rintro ⟨hexit, hwaits⟩
  rw [exit_detachNext] at hexit
  rcases s.detachNext_cases (.other t) with heq | ⟨objectId, function, -, heq⟩ |
    ⟨objectId, function, -, -, heq⟩ | ⟨objectId, function, -, heq⟩ | ⟨_, _, -, ht, -⟩ |
    ⟨objectId, function, hexecute, -, -⟩ | ⟨objectId, serial, -, -, heq⟩
  · exact h ⟨hexit, heq ▸ hwaits⟩
  · rw [heq, detaching_setDetaching_self] at hwaits
    rcases hwaits with ⟨_, _, hphase⟩ | ⟨_, _, hphase, -⟩ <;>
      exact absurd (congrArg Detach.phase (Option.some.inj hphase)) nofun
  · rw [heq, detaching_setDetaching_self] at hwaits
    rcases hwaits with ⟨_, _, hphase⟩ | ⟨_, _, hphase, -⟩ <;>
      obtain ⟨_, -, hphase⟩ := Option.map_eq_some_iff.mp hphase <;>
      exact absurd (congrArg Detach.phase hphase) nofun
  · rw [heq, detaching_setDetaching_self, if_pos hexit] at hwaits
    rcases hwaits with ⟨_, _, hphase⟩ | ⟨_, _, hphase, -⟩ <;> exact absurd hphase nofun
  · exact absurd ht nofun
  · exact h ⟨hexit, .inl ⟨objectId, function, hexecute⟩⟩
  · rw [heq, detaching_setDetaching_self] at hwaits
    rcases hwaits with ⟨_, _, hphase⟩ | ⟨_, _, hphase, -⟩ <;> exact absurd hphase nofun

omit [DecidableEq τ] in
/-- The worker thread does not lose a function of `detach`. -/
theorem inService_workerNext {e : Entry φ} (he : e ∈ s.inService)
    (hclient : e.objectIdValue = none) :
    e ∈ s.workerNext.inService ∨ e.serial ∈ s.workerNext.returned := by
  unfold inService at he
  cases hworker : s.worker with
  | waiting | called | exited =>
      rw [hworker] at he
      exact absurd he List.not_mem_nil
  | taken x =>
      rw [hworker] at he
      obtain rfl := List.mem_singleton.mp he
      left
      rw [Dispatcher.workerNext, hworker]
      exact List.mem_singleton_self _
  | announced x =>
      rw [hworker] at he
      obtain rfl := List.mem_singleton.mp he
      left
      have hattached : s.Attached e.objectIdValue := by
        rw [hclient]
        exact nofun
      rw [Dispatcher.workerNext, hworker]
      dsimp only
      rw [if_pos hattached]
      exact List.mem_singleton_self _
  | calling x =>
      rw [hworker] at he
      obtain rfl := List.mem_singleton.mp he
      rw [Dispatcher.workerNext, hworker]
      dsimp only
      split_ifs
      · left
        rw [inService, hworker]
        exact List.mem_singleton_self _
      · exact .inr List.mem_cons_self

omit [DecidableEq τ] in
theorem not_abandoned_workerNext (hsound : s.Sound) (h : ¬ s.Abandoned t) :
    ¬ s.workerNext.Abandoned t := by
  rintro ⟨hexit, hwaits⟩
  rw [exit_workerNext] at hexit
  rw [detaching_workerNext] at hwaits
  rcases hwaits with hexecute | ⟨objectId, serial, hnotice, hreturned, hservice⟩
  · exact h ⟨hexit, .inl hexecute⟩
  · refine h ⟨hexit, .inr ⟨objectId, serial, hnotice, fun hmem => hreturned ?_, ?_⟩⟩
    · rcases s.pending_workerNext with ⟨-, heq⟩ | ⟨_, -, -, heq | ⟨heq, -⟩⟩ <;> rw [heq]
      · exact hmem
      · exact List.mem_cons_of_mem _ hmem
      · exact hmem
    · rintro e he rfl
      have hinternal := (hsound.served _ _ _ hnotice).internal e (List.mem_append_left _ he) rfl
      exact (inService_workerNext he hinternal.1).elim (fun he => hservice e he rfl) hreturned

/-- The inputs by which threads that are under way go on. -/
def Continues : Input τ φ → Prop
  | .workerNext | .detachNext _ => True
  | _ => False

omit [DecidableEq τ] in
/-- Outside of `detach` the worker thread goes on with its entry. -/
theorem work_workerNext (hdetaching : s.detaching .worker = none) (hwaiting : s.worker ≠ .waiting)
    (hexited : s.worker ≠ .exited) : s.workerNext.work < s.work := by
  unfold work
  rw [detaching_workerNext]
  unfold workerNext
  cases hworker : s.worker with
  | waiting => exact absurd hworker hwaiting
  | exited => exact absurd hworker hexited
  | taken e => simp [workerRank]
  | announced e =>
      dsimp only
      split_ifs <;> simp [workerRank]
  | calling e =>
      dsimp only
      rw [if_neg (by rw [hdetaching]; exact nofun)]
      simp [workerRank]
  | called e => simp [workerRank]

theorem length_queue_detachNext_worker (s : Dispatcher τ φ) :
    (s.detachNext .worker).queue.length ≤ s.queue.length := by
  rcases s.detachNext_cases .worker with h | ⟨_, _, -, h⟩ | ⟨_, _, -, -, h⟩ | ⟨_, _, -, h⟩ |
    ⟨_, _, -, -, h⟩ | ⟨_, _, -, ht, -⟩ | ⟨_, _, -, -, h⟩
  case inr.inl => rw [h]; exact List.length_filter_le ..
  case inr.inr.inr.inr.inr.inl => exact absurd rfl ht
  all_goals exact (congrArg (fun s => s.queue.length) h).le

/-- **The worker thread can go on with its entry**, and what it does abandons no `detach`. -/
theorem exists_worker_step (hsound : s.Sound) (hwaiting : s.worker ≠ .waiting)
    (hexited : s.worker ≠ .exited) (t : τ) :
    ∃ i, Continues i ∧ (Dispatcher.step s i).detaching (.other t) = s.detaching (.other t) ∧
      (¬ s.Abandoned t → ¬ (Dispatcher.step s i).Abandoned t) ∧
      (Dispatcher.step s i).work < s.work := by
  cases hdetaching : s.detaching .worker with
  | none =>
      exact ⟨.workerNext, trivial, congrFun (detaching_workerNext s) _,
        not_abandoned_workerNext hsound, work_workerNext hdetaching hwaiting hexited⟩
  | some detach =>
      have hother := detaching_detachNext_of_ne (Thread.other_ne_worker t) s
      refine ⟨.detachNext .worker, trivial, hother, fun h habandoned => h ?_, ?_⟩
      · exact habandoned.congr ((exit_detachNext .worker s).symm.trans habandoned.exit) hother.symm
          (worker_detachNext .worker s).symm (returned_detachNext .worker s).symm
      · have hrank := phaseRank_detachNext hdetaching (fun h => absurd rfl h) fun serial h =>
          absurd (hdetaching.trans (congrArg some (show detach = ⟨detach.objectId, _⟩ by rw [← h])))
            (hsound.waitNotice detach.objectId serial)
        have hlength := s.length_queue_detachNext_worker
        show (s.detachNext .worker).work < s.work
        unfold work
        rw [worker_detachNext]
        omega

omit [DecidableEq τ] in
/-- What is at the front of the queue is due, if a function of `detach` is in it. -/
theorem exists_front (hsound : s.Sound) {e : Entry φ} (he : e ∈ s.queue)
    (hinternal : e.when = whenInternalDetached) :
    ∃ x queue, s.queue = x :: queue ∧ ¬ max whenImmediately s.now < x.when := by
  cases hqueue : s.queue with
  | nil =>
      rw [hqueue] at he
      exact absurd he List.not_mem_nil
  | cons x queue =>
      refine ⟨x, queue, rfl, ?_⟩
      have hfront := hsound.front
      rw [hqueue] at he hfront
      have hdue : x.when ≤ whenInternalDetached := by
        rcases List.mem_cons.mp he with rfl | he
        · exact hinternal.le
        · exact (List.pairwise_cons.mp hfront).1 e he hinternal
      have himmediately : whenInternalDetached ≤ max whenImmediately s.now :=
        (by decide : whenInternalDetached ≤ whenImmediately).trans (le_max_left _ _)
      exact (hdue.trans himmediately).not_gt

/-- **A `detach` that is not abandoned can go on**: the thread itself, or the worker thread that it
waits for. -/
theorem exists_step (hsound : s.Sound) (habandoned : ¬ s.Abandoned t) {detach : Detach φ}
    (hdetaching : s.detaching (.other t) = some detach) :
    ∃ i, Continues i ∧ ¬ (Dispatcher.step s i).Abandoned t ∧
      toLex (phaseRank ((Dispatcher.step s i).detaching (.other t)), (Dispatcher.step s i).work) <
        toLex (phaseRank (s.detaching (.other t)), s.work) := by
  have hworker (hwaiting : s.worker ≠ .waiting) (hexited : s.worker ≠ .exited) :
      ∃ i, Continues i ∧ ¬ (Dispatcher.step s i).Abandoned t ∧
        toLex (phaseRank ((Dispatcher.step s i).detaching (.other t)), (Dispatcher.step s i).work) <
          toLex (phaseRank (s.detaching (.other t)), s.work) := by
    obtain ⟨i, hi, heq, hkeeps, hlt⟩ := exists_worker_step hsound hwaiting hexited t
    exact ⟨i, hi, hkeeps habandoned,
      Prod.Lex.toLex_lt_toLex.mpr (.inr ⟨congrArg phaseRank heq, hlt⟩)⟩
  by_cases hwait : ∃ function, detach.phase = .wait function ∧
      s.runningFunctionObjectId = some (some detach.objectId)
  · -- The worker thread has announced the object.
    obtain ⟨_, -, hannounced⟩ := hwait
    have hrunning := hsound.running
    rw [RunningSound, hannounced] at hrunning
    refine hworker ?_ ?_ <;> intro hw <;> rw [hw] at hrunning <;>
      exact Option.some_ne_none _ hrunning
  by_cases hnotice : ∃ serial, detach.phase = .waitNotice serial ∧ serial ∉ s.returned
  · -- The function is in hand or in the queue.
    obtain ⟨serial, hphase, hreturned⟩ := hnotice
    have hnotice : s.detaching (.other t) = some ⟨detach.objectId, .waitNotice serial⟩ := by
      rw [hdetaching, ← hphase]
    have hservice (hservice : s.inService = []) : s.exit = false := by
      by_contra hexit
      refine habandoned ⟨by simpa using hexit, .inr ⟨_, serial, hnotice, hreturned, ?_⟩⟩
      intro e he
      rw [hservice] at he
      exact absurd he List.not_mem_nil
    by_cases hexited : s.worker = .exited
    · have hexit := hservice (by rw [inService, hexited])
      exact absurd (hexit.symm.trans (hsound.exit hexited)) Bool.false_ne_true
    by_cases hwaiting : s.worker = .waiting
    · have hnone : s.inService = [] := by rw [inService, hwaiting]
      have hserved := hsound.served _ _ _ hnotice
      obtain ⟨e, he, heq⟩ := hserved.returned_or_pending.resolve_left hreturned
      have hinternal := hserved.internal e he heq
      rw [pending, hnone, List.nil_append] at he
      obtain ⟨x, queue, hqueue, hdue⟩ := exists_front hsound he hinternal.2
      have htakes : s.workerNext = { s with worker := .taken x, queue } := by
        rw [workerNext, hwaiting]
        dsimp only
        rw [hservice hnone, hqueue]
        exact if_neg hdue
      refine ⟨.workerNext, trivial, not_abandoned_workerNext hsound habandoned,
        Prod.Lex.toLex_lt_toLex.mpr (.inr ⟨?_, ?_⟩)⟩
      · exact congrArg phaseRank (congrFun (detaching_workerNext s) _)
      · show s.workerNext.work < s.work
        rw [htakes, work, work, hqueue, hwaiting, List.length_cons]
        dsimp only [workerRank]
        omega
    · exact hworker hwaiting hexited
  · -- The thread does not wait.
    refine ⟨.detachNext (.other t), trivial, not_abandoned_detachNext habandoned,
      Prod.Lex.toLex_lt_toLex.mpr (.inl ?_)⟩
    refine phaseRank_detachNext hdetaching (fun _ function hphase hrunning => ?_)
      fun serial hphase => ?_
    · exact hwait ⟨function, hphase, hrunning⟩
    · by_contra hreturned
      exact hnotice ⟨serial, hphase, hreturned⟩

end

/-- **Whether `detach` returns.**  In every reachable state a `detach` that is under way can return,
by steps of threads that are under way alone, unless it is abandoned; then it never returns. -/
theorem returns_unless_abandoned [DecidableEq τ] (objectIds : Finset ℕ) (is : List (Input τ φ))
    (t : τ) :
    ((run objectIds is).Abandoned t → ∀ js,
      (Machine.run step (run objectIds is) js).detaching (.other t) ≠ none) ∧
    (¬ (run objectIds is).Abandoned t → ∃ js, (∀ j ∈ js, Continues j) ∧
      (Machine.run step (run objectIds is) js).detaching (.other t) = none) := by
  constructor
  · intro habandoned js
    have hkeep : ∀ (s : Dispatcher τ φ) i, s.Sound ∧ s.Abandoned t →
        (Dispatcher.step s i).Sound ∧ (Dispatcher.step s i).Abandoned t :=
      fun s i h => ⟨h.1.step i, h.2.step h.1 i⟩
    exact (@Machine.run_invariant _ _ step (fun s => s.Sound ∧ s.Abandoned t) hkeep _
      ⟨sound_run objectIds is, habandoned⟩ js).2.detaching_ne_none
  · intro habandoned
    have hdescent : ∀ s : Dispatcher τ φ, s.Sound ∧ ¬ s.Abandoned t →
        s.detaching (.other t) = none ∨ ∃ i, Continues i ∧
          ((Dispatcher.step s i).Sound ∧ ¬ (Dispatcher.step s i).Abandoned t) ∧
          toLex (phaseRank ((Dispatcher.step s i).detaching (.other t)),
            (Dispatcher.step s i).work) < toLex (phaseRank (s.detaching (.other t)), s.work) := by
      rintro s ⟨hsound, habandoned⟩
      cases hdetaching : s.detaching (.other t) with
      | none => exact .inl rfl
      | some detach =>
          obtain ⟨i, hi, hkeeps, hlt⟩ := exists_step hsound habandoned hdetaching
          rw [hdetaching] at hlt
          exact .inr ⟨i, hi, ⟨hsound.step i, hkeeps⟩, hlt⟩
    exact @Machine.exists_run_of_descent _ _ _ _ _ step Continues
      (fun s => s.Sound ∧ ¬ s.Abandoned t) (fun s => s.detaching (.other t) = none)
      (fun s => toLex (phaseRank (s.detaching (.other t)), s.work)) hdescent _
      ⟨sound_run objectIds is, habandoned⟩

end Karabiner.Dispatcher.Dispatcher
