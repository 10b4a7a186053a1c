import Karabiner.Library.History
import Karabiner.Library.Machine
import Karabiner.Library.TimedQueue
import Mathlib.Data.Finset.Basic
import Mathlib.Data.Int.Notation
import Mathlib.Data.Prod.Lex

/-!
# The dispatcher

`vendor/include/pqrs/dispatcher/dispatcher.hpp`.  Any thread may put functions into its queue, each
for an object and for a time, and one worker thread runs them.  An object that goes away is detached
first; the functions which it has left must then never run.

Everything that is done under one lock is one step, and the steps of the threads come in any order.
The worker thread takes a function out of the queue, announces its object, looks whether the object
is attached, runs the function and revokes the announcement, five steps.  What a function does is
left open: it comes as steps of its own, which the worker thread may take while it is in a function.
When the worker thread wakes up is left open as well.

The dispatcher has an object id of its own, for the functions that `detach` runs.  No client has it;
here it is `none`.  `serial` numbers the entries, which the source tells apart by their addresses.

* `not_calling_of_detached` — **once `detach` has returned, no function of the object runs**, until
  the object is attached again.
* `inOrder_run` — functions run in the order of their times.
* `delivered_run` — those for one time run in the order in which they came, **each exactly once**.
-/

set_option linter.dupNamespace false

namespace Karabiner.Dispatcher

/-- A thread: the worker thread of the dispatcher, or another one. -/
inductive Thread (τ : Type)
  | worker
  | other (t : τ)
deriving DecidableEq, Repr

/-- The threads of others are not the worker. -/
theorem Thread.other_ne_worker {τ : Type} (t : τ) : Thread.other t ≠ .worker := nofun

/-- `dispatcher::entry`. -/
structure Dispatcher.Entry (φ : Type) where
  serial : ℕ
  objectIdValue : Option ℕ
  function : φ
  when : ℤ
deriving DecidableEq, Repr

/-- What the worker thread has done last. -/
inductive Dispatcher.Worker (φ : Type)
  | waiting
  | taken (e : Entry φ)
  | announced (e : Entry φ)
  | calling (e : Entry φ)
  | called (e : Entry φ)
  | exited
deriving DecidableEq, Repr

/-- What a thread in `detach` does next, with the function that was given to it. -/
inductive Dispatcher.DetachPhase (φ : Type)
  | eraseEntries (function : Option φ)
  | wait (function : Option φ)
  | checkExit (function : φ)
  | execute (function : φ)
  | waitNotice (serial : ℕ)
deriving DecidableEq, Repr

/-- A `detach` that is under way. -/
structure Dispatcher.Detach (φ : Type) where
  objectId : ℕ
  phase : DetachPhase φ
deriving DecidableEq, Repr

/-- `dispatcher`, with the time of its time source, the threads that are in `detach`, the entries
whose functions have been called and those that have returned. -/
structure Dispatcher (τ φ : Type) where
  now : ℤ := 0
  queue : List (Dispatcher.Entry φ) := []
  exit : Bool := false
  objectIds : Finset ℕ := ∅
  runningFunctionObjectId : Option (Option ℕ) := none
  worker : Dispatcher.Worker φ := .waiting
  detaching : Thread τ → Option (Dispatcher.Detach φ) := fun _ => none
  nextSerial : ℕ := 0
  called : List (Dispatcher.Entry φ) := []
  returned : List ℕ := []

namespace Dispatcher

variable {τ φ : Type} [DecidableEq τ]

/-! ### The methods -/

/-- `when_internal_detached`. -/
def whenInternalDetached : ℤ := 0

/-- `when_immediately`. -/
def whenImmediately : ℤ := 1

/-- `enqueue`: the place of a new entry. -/
def insertEntry (e : Entry φ) (queue : List (Entry φ)) : List (Entry φ) :=
  if e.when = whenInternalDetached then e :: queue else TimedQueue.insert Entry.when e queue

/-- `enqueue`. -/
def enqueue (objectId : Option ℕ) (function : φ) (when : ℤ) (s : Dispatcher τ φ) :
    Dispatcher τ φ :=
  { s with
    queue := insertEntry ⟨s.nextSerial, objectId, function, when⟩ s.queue
    nextSerial := s.nextSerial + 1 }

/-- `attach`. -/
def attach (objectId : ℕ) (s : Dispatcher τ φ) : Dispatcher τ φ :=
  { s with objectIds := insert objectId s.objectIds }

/-- Whether the object of an entry is attached. -/
def Attached (s : Dispatcher τ φ) (objectId : Option ℕ) : Prop := ∀ n ∈ objectId, n ∈ s.objectIds

instance (s : Dispatcher τ φ) (objectId : Option ℕ) : Decidable (s.Attached objectId) := by
  unfold Attached
  infer_instance

/-- Whether the worker thread is in a function. -/
def isCalling (s : Dispatcher τ φ) : Bool :=
  match s.worker with
  | .calling _ => true
  | _ => false

/-- What the thread `t` does in `detach` from now on. -/
def setDetaching (t : Thread τ) (detach : Option (Detach φ)) (s : Dispatcher τ φ) :
    Dispatcher τ φ :=
  { s with detaching := Function.update s.detaching t detach }

@[simp] theorem detaching_setDetaching_self (t : Thread τ) (detach : Option (Detach φ))
    (s : Dispatcher τ φ) : (s.setDetaching t detach).detaching t = detach :=
  Function.update_self ..

theorem detaching_setDetaching_of_ne {t t' : Thread τ} (h : t' ≠ t) (detach : Option (Detach φ))
    (s : Dispatcher τ φ) : (s.setDetaching t detach).detaching t' = s.detaching t' :=
  Function.update_of_ne h ..

/-- `detach`, up to the lock of the queue.  A thread is in one `detach` at a time, the worker thread
only from a function. -/
def detach (t : Thread τ) (objectId : ℕ) (function : Option φ) (s : Dispatcher τ φ) :
    Dispatcher τ φ :=
  if (s.detaching t).isSome ∨ t = .worker ∧ s.isCalling = false then s
  else if objectId ∉ s.objectIds then s
  else { s with objectIds := s.objectIds.erase objectId }.setDetaching t
    (some ⟨objectId, .eraseEntries function⟩)

/-- The next step of a thread that is in `detach`.  The worker thread does not wait, and it runs the
function at once, as a part of the function that it is in. -/
def detachNext (t : Thread τ) (s : Dispatcher τ φ) : Dispatcher τ φ :=
  match s.detaching t with
  | none => s
  | some ⟨objectId, .eraseEntries function⟩ =>
    { s with queue := s.queue.filter fun e => e.objectIdValue ≠ some objectId }.setDetaching t
      (some ⟨objectId, .wait function⟩)
  | some ⟨objectId, .wait function⟩ =>
    if t ≠ .worker ∧ s.runningFunctionObjectId = some (some objectId) then s
    else s.setDetaching t (function.map fun f => ⟨objectId, .checkExit f⟩)
  | some ⟨objectId, .checkExit function⟩ =>
    s.setDetaching t (if s.exit then none else some ⟨objectId, .execute function⟩)
  | some ⟨objectId, .execute function⟩ =>
    if t = .worker then s.setDetaching t none
    else (s.enqueue none function whenInternalDetached).setDetaching t
      (some ⟨objectId, .waitNotice s.nextSerial⟩)
  | some ⟨_, .waitNotice serial⟩ => if serial ∈ s.returned then s.setDetaching t none else s

/-- The next step of the worker thread. -/
def workerNext (s : Dispatcher τ φ) : Dispatcher τ φ :=
  match s.worker with
  | .waiting =>
    if s.exit then { s with worker := .exited }
    else match s.queue with
      | [] => s
      | e :: queue =>
        if max whenImmediately s.now < e.when then s
        else { s with worker := .taken e, queue }
  | .taken e =>
    { s with worker := .announced e, runningFunctionObjectId := some e.objectIdValue }
  | .announced e =>
    if s.Attached e.objectIdValue then
      { s with worker := .calling e, called := s.called ++ [e] }
    else { s with worker := .called e }
  | .calling e =>
    if (s.detaching .worker).isSome then s
    else { s with worker := .called e, returned := e.serial :: s.returned }
  | .called _ => { s with worker := .waiting, runningFunctionObjectId := none }
  | .exited => s

/-- What may happen. -/
inductive Input (τ φ : Type)
  | clock (now : ℤ)
  | attach (objectId : ℕ)
  | enqueue (objectId : ℕ) (function : φ) (when : ℤ)
  | detach (t : Thread τ) (objectId : ℕ) (function : Option φ)
  | detachNext (t : Thread τ)
  | workerNext
  | terminate
deriving DecidableEq, Repr

/-- One step. -/
def step (s : Dispatcher τ φ) : Input τ φ → Dispatcher τ φ
  | .clock now => { s with now }
  | .attach objectId => s.attach objectId
  | .enqueue objectId function when => s.enqueue (some objectId) function when
  | .detach t objectId function => s.detach t objectId function
  | .detachNext t => s.detachNext t
  | .workerNext => s.workerNext
  | .terminate => { s with exit := true }

/-- A run of a dispatcher to which these objects are attached. -/
def run (objectIds : Finset ℕ) (is : List (Input τ φ)) : Dispatcher τ φ :=
  Machine.run step { objectIds } is

/-! ### What a step can do -/

omit [DecidableEq τ] in
/-- **What the worker thread can do.** -/
theorem workerNext_cases (s : Dispatcher τ φ) :
    s.workerNext = s ∨
    (s.worker = .waiting ∧ s.exit = true ∧ s.workerNext = { s with worker := .exited }) ∨
    (∃ e queue, s.worker = .waiting ∧ s.exit = false ∧ s.queue = e :: queue ∧
      s.workerNext = { s with worker := .taken e, queue }) ∨
    (∃ e, s.worker = .taken e ∧ s.workerNext =
      { s with worker := .announced e, runningFunctionObjectId := some e.objectIdValue }) ∨
    (∃ e, s.worker = .announced e ∧ s.Attached e.objectIdValue ∧
      s.workerNext = { s with worker := .calling e, called := s.called ++ [e] }) ∨
    (∃ e, s.worker = .announced e ∧ ¬ s.Attached e.objectIdValue ∧
      s.workerNext = { s with worker := .called e }) ∨
    (∃ e, s.worker = .calling e ∧ s.detaching .worker = none ∧
      s.workerNext = { s with worker := .called e, returned := e.serial :: s.returned }) ∨
    ∃ e, s.worker = .called e ∧
      s.workerNext = { s with worker := .waiting, runningFunctionObjectId := none } := by
  unfold workerNext
  cases hworker : s.worker with
  | waiting =>
      cases hexit : s.exit with
      | true => exact .inr (.inl ⟨rfl, rfl, rfl⟩)
      | false =>
          cases hqueue : s.queue with
          | nil => exact .inl rfl
          | cons e queue =>
              by_cases hdue : max whenImmediately s.now < e.when
              · exact .inl (if_pos hdue)
              · exact .inr (.inr (.inl ⟨e, queue, rfl, rfl, rfl, if_neg hdue⟩))
  | taken e => exact .inr (.inr (.inr (.inl ⟨e, rfl, rfl⟩)))
  | announced e =>
      by_cases hattached : s.Attached e.objectIdValue
      · exact .inr (.inr (.inr (.inr (.inl ⟨e, rfl, hattached, if_pos hattached⟩))))
      · exact .inr (.inr (.inr (.inr (.inr (.inl ⟨e, rfl, hattached, if_neg hattached⟩)))))
  | calling e =>
      cases hdetaching : s.detaching .worker with
      | some detach => exact .inl rfl
      | none => exact .inr (.inr (.inr (.inr (.inr (.inr (.inl ⟨e, rfl, rfl, rfl⟩))))))
  | called e => exact .inr (.inr (.inr (.inr (.inr (.inr (.inr ⟨e, rfl, rfl⟩))))))
  | exited => exact .inl rfl

/-- **What a thread in `detach` can do.** -/
theorem detachNext_cases (t : Thread τ) (s : Dispatcher τ φ) :
    s.detachNext t = s ∨
    (∃ objectId function, s.detaching t = some ⟨objectId, .eraseEntries function⟩ ∧
      s.detachNext t = { s with
        queue := s.queue.filter fun e => e.objectIdValue ≠ some objectId }.setDetaching t
          (some ⟨objectId, .wait function⟩)) ∨
    (∃ objectId function, s.detaching t = some ⟨objectId, .wait function⟩ ∧
      (t ≠ .worker → s.runningFunctionObjectId ≠ some (some objectId)) ∧
      s.detachNext t = s.setDetaching t (function.map fun f => ⟨objectId, .checkExit f⟩)) ∨
    (∃ objectId function, s.detaching t = some ⟨objectId, .checkExit function⟩ ∧
      s.detachNext t =
        s.setDetaching t (if s.exit then none else some ⟨objectId, .execute function⟩)) ∨
    (∃ objectId function, s.detaching t = some ⟨objectId, .execute function⟩ ∧ t = .worker ∧
      s.detachNext t = s.setDetaching t none) ∨
    (∃ objectId function, s.detaching t = some ⟨objectId, .execute function⟩ ∧ t ≠ .worker ∧
      s.detachNext t = (s.enqueue none function whenInternalDetached).setDetaching t
        (some ⟨objectId, .waitNotice s.nextSerial⟩)) ∨
    ∃ objectId serial, s.detaching t = some ⟨objectId, .waitNotice serial⟩ ∧
      serial ∈ s.returned ∧ s.detachNext t = s.setDetaching t none := by
  unfold detachNext
  rcases hdetach : s.detaching t with
    - | ⟨objectId, function | function | function | function | serial⟩
  · exact .inl rfl
  · exact .inr (.inl ⟨objectId, function, rfl, rfl⟩)
  · by_cases hwait : t ≠ .worker ∧ s.runningFunctionObjectId = some (some objectId)
    · exact .inl (if_pos hwait)
    · exact .inr (.inr (.inl ⟨objectId, function, rfl, fun ht hrunning => hwait ⟨ht, hrunning⟩,
        if_neg hwait⟩))
  · exact .inr (.inr (.inr (.inl ⟨objectId, function, rfl, rfl⟩)))
  · by_cases ht : t = .worker
    · exact .inr (.inr (.inr (.inr (.inl ⟨objectId, function, rfl, ht, if_pos ht⟩))))
    · exact .inr (.inr (.inr (.inr (.inr (.inl ⟨objectId, function, rfl, ht, if_neg ht⟩)))))
  · by_cases hreturned : serial ∈ s.returned
    · exact .inr (.inr (.inr (.inr (.inr (.inr ⟨objectId, serial, rfl, hreturned,
        if_pos hreturned⟩)))))
    · exact .inl (if_neg hreturned)

/-! ### The order of the functions -/

/-- The entry whose function the worker thread is about to call. -/
def inHand (s : Dispatcher τ φ) : List (Entry φ) :=
  match s.worker with
  | .taken e | .announced e => [e]
  | _ => []

/-- The entries, in the order in which their functions have been or will be called. -/
def entries (s : Dispatcher τ φ) : List (Entry φ) := s.called ++ s.inHand ++ s.queue

omit [DecidableEq τ] in
/-- **Where a new entry goes.** -/
theorem exists_insertEntry (e : Entry φ) (queue : List (Entry φ)) :
    ∃ before after, queue = before ++ after ∧ insertEntry e queue = before ++ e :: after ∧
      (∀ y ∈ after, e.when = whenInternalDetached ∨ e.when < y.when) ∧
      (e.when = whenInternalDetached → before = []) := by
  unfold insertEntry
  by_cases hinternal : e.when = whenInternalDetached
  · exact ⟨[], queue, rfl, if_pos hinternal, fun _ _ => .inl hinternal, fun _ => rfl⟩
  · obtain ⟨before, after, hqueue, hinsert, hafter⟩ :=
      TimedQueue.exists_insert Entry.when e queue
    exact ⟨before, after, hqueue, (if_neg hinternal).trans hinsert,
      fun y hy => .inr (hafter y hy), fun h => absurd h hinternal⟩

omit [DecidableEq τ] in
/-- The worker thread keeps the order, and skips functions of objects that are not attached. -/
theorem entries_workerNext (s : Dispatcher τ φ) : s.workerNext.entries.Sublist s.entries := by
  rcases s.workerNext_cases with h | ⟨hworker, -, h⟩ | ⟨e, queue, hworker, -, hqueue, h⟩ |
    ⟨e, hworker, h⟩ | ⟨e, hworker, -, h⟩ | ⟨e, hworker, -, h⟩ | ⟨e, hworker, -, h⟩ |
    ⟨e, hworker, h⟩
  · rw [h]
  · simp [h, entries, inHand, hworker]
  · simp [h, entries, inHand, hworker, hqueue]
  · simp [h, entries, inHand, hworker]
  · simp [h, entries, inHand, hworker]
  · simp [h, entries, inHand, hworker]
  · simp [h, entries, inHand, hworker]
  · simp [h, entries, inHand, hworker]

/-- **What a step does to the entries**: it drops some, or puts a new one in its place. -/
theorem entries_step (s : Dispatcher τ φ) (i : Input τ φ) :
    (step s i).entries.Sublist s.entries ∧ (step s i).nextSerial = s.nextSerial ∨
    ∃ before e after, s.entries = before ++ after ∧ (step s i).entries = before ++ e :: after ∧
      e.serial = s.nextSerial ∧ (step s i).nextSerial = s.nextSerial + 1 ∧
      ∀ y ∈ after, e.when = whenInternalDetached ∨ e.when < y.when := by
  have henqueue (objectId : Option ℕ) (function : φ) (when : ℤ) :
      ∃ before e after, s.entries = before ++ after ∧
        (s.enqueue objectId function when).entries = before ++ e :: after ∧
        e.serial = s.nextSerial ∧
        (s.enqueue objectId function when).nextSerial = s.nextSerial + 1 ∧
        ∀ y ∈ after, e.when = whenInternalDetached ∨ e.when < y.when := by
    obtain ⟨before, after, hqueue, hinsert, hafter, -⟩ :=
      exists_insertEntry ⟨s.nextSerial, objectId, function, when⟩ s.queue
    refine ⟨s.called ++ s.inHand ++ before, _, after, ?_, ?_, rfl, rfl, hafter⟩
    · rw [entries, hqueue, ← List.append_assoc]
    · show s.called ++ s.inHand ++ insertEntry _ s.queue = _
      rw [hinsert, ← List.append_assoc]
  cases i with
  | clock now => exact .inl ⟨.refl _, rfl⟩
  | attach objectId => exact .inl ⟨.refl _, rfl⟩
  | enqueue objectId function when => exact .inr (henqueue _ _ _)
  | detach t objectId function =>
      left
      show (s.detach t objectId function).entries.Sublist _ ∧
        (s.detach t objectId function).nextSerial = _
      unfold detach
      split_ifs <;> exact ⟨.refl _, rfl⟩
  | detachNext t =>
      show (s.detachNext t).entries.Sublist _ ∧ (s.detachNext t).nextSerial = _ ∨ _
      rcases s.detachNext_cases t with h | ⟨objectId, function, -, h⟩ |
          ⟨objectId, function, -, -, h⟩ |
        ⟨objectId, function, -, h⟩ | ⟨objectId, function, -, -, h⟩ | ⟨objectId, function, -, -, h⟩ |
        ⟨objectId, serial, -, -, h⟩
      · exact .inl (by rw [h]; exact ⟨.refl _, rfl⟩)
      · exact .inl (by rw [h]; exact ⟨List.filter_sublist.append_left _, rfl⟩)
      · exact .inl (by rw [h]; exact ⟨.refl _, rfl⟩)
      · exact .inl (by rw [h]; exact ⟨.refl _, rfl⟩)
      · exact .inl (by rw [h]; exact ⟨.refl _, rfl⟩)
      · exact .inr (by rw [step, h]; exact henqueue none function whenInternalDetached)
      · exact .inl (by rw [h]; exact ⟨.refl _, rfl⟩)
  | workerNext =>
      have hserial : s.workerNext.nextSerial = s.nextSerial := by
        rcases s.workerNext_cases with h | ⟨-, -, h⟩ | ⟨_, _, -, -, -, h⟩ | ⟨_, -, h⟩ |
          ⟨_, -, -, h⟩ | ⟨_, -, -, h⟩ | ⟨_, -, -, h⟩ | ⟨_, -, h⟩ <;> rw [h]
      exact .inl ⟨s.entries_workerNext, hserial⟩
  | terminate => exact .inl ⟨.refl _, rfl⟩

/-- `y` may follow `x`: it has not been there earlier, for a time that is not later, unless `x` is a
function of `detach`. -/
def InOrder (x y : Entry φ) : Prop :=
  y.serial < x.serial → x.when = whenInternalDetached ∨ x.when < y.when

/-- The entries are in their order, and a new one will be new. -/
structure Ordered (s : Dispatcher τ φ) : Prop where
  pairwise : s.entries.Pairwise InOrder
  fresh : ∀ e ∈ s.entries, e.serial < s.nextSerial

/-- Every step keeps the queue in order. -/
theorem Ordered.step {s : Dispatcher τ φ} (h : s.Ordered) (i : Input τ φ) :
    (step s i).Ordered := by
  rcases s.entries_step i with ⟨hsublist, hserial⟩ |
    ⟨before, e, after, hentries, hnew, he, hserial, hafter⟩
  · exact ⟨h.pairwise.sublist hsublist, fun e he => hserial ▸ h.fresh e (hsublist.subset he)⟩
  · have hfresh := h.fresh
    have hpairwise := h.pairwise
    rw [hentries] at hfresh hpairwise
    constructor
    · rw [hnew]
      refine TimedQueue.pairwise_between hpairwise (fun x hx hlt => ?_) fun y hy _ => hafter y hy
      have hx := hfresh x (List.mem_append_left _ hx)
      omega
    · intro y hy
      rw [hnew] at hy
      rw [hserial]
      rcases List.mem_append.mp hy with hy | hy
      · exact (hfresh y (List.mem_append_left _ hy)).trans (Nat.lt_succ_self _)
      · rcases List.mem_cons.mp hy with rfl | hy
        · omega
        · exact (hfresh y (List.mem_append_right _ hy)).trans (Nat.lt_succ_self _)

/-- The queue is in order in every reachable state. -/
theorem ordered_run (objectIds : Finset ℕ) (is : List (Input τ φ)) :
    (run objectIds is).Ordered := by
  have hinit : ({ objectIds } : Dispatcher τ φ).Ordered := ⟨.nil, nofun⟩
  have hkeep : ∀ (s : Dispatcher τ φ) i, s.Ordered → (Dispatcher.step s i).Ordered :=
    fun _ i h => h.step i
  exact @Machine.run_invariant _ _ Dispatcher.step Ordered hkeep _ hinit is

/-- **Functions run in the order of their times**, and those that came earlier first, in every run:
nothing overtakes a function but one that is for an earlier time, and those of `detach`. -/
theorem inOrder_run (objectIds : Finset ℕ) (is : List (Input τ φ)) :
    (run objectIds is).entries.Pairwise InOrder :=
  (ordered_run objectIds is).pairwise

/-! ### Each function runs exactly once -/

/-- The object and the function of an entry, if it is one of these objects and this time. -/
def select (objectIds : Finset ℕ) (when : ℤ) (e : Entry φ) : Option (ℕ × φ) :=
  match e.objectIdValue with
  | some objectId =>
    if objectId ∈ objectIds ∧ e.when = when then some (objectId, e.function) else none
  | none => none

/-- What these objects have enqueued for this time. -/
def enqueued (objectIds : Finset ℕ) (when : ℤ) (is : List (Input τ φ)) : List (ℕ × φ) :=
  is.filterMap fun
    | .enqueue objectId function time =>
      if objectId ∈ objectIds ∧ time = when then some (objectId, function) else none
    | _ => none

omit [DecidableEq τ] in
/-- What is selected is a function of one of the objects, for that time. -/
theorem select_eq_some {objectIds : Finset ℕ} {when : ℤ} {e : Entry φ} {x : ℕ × φ}
    (h : select objectIds when e = some x) :
    e.objectIdValue = some x.1 ∧ x.1 ∈ objectIds ∧ e.when = when := by
  unfold select at h
  split at h
  case h_1 objectId hobjectId =>
    split_ifs at h with hmem
    obtain rfl := Option.some.inj h
    exact ⟨hobjectId, hmem⟩
  case h_2 => exact absurd h nofun

omit [DecidableEq τ] in
/-- What is enqueued comes last among what is for the same time. -/
theorem filterMap_insertEntry (objectIds : Finset ℕ) {when : ℤ}
    (hwhen : when ≠ whenInternalDetached)
    (e : Entry φ) (queue : List (Entry φ)) :
    (insertEntry e queue).filterMap (select objectIds when) =
      queue.filterMap (select objectIds when) ++ (select objectIds when e).toList := by
  have hkey (y : Entry φ) (hy : (select objectIds when y).isSome) : y.when = when := by
    obtain ⟨x, hx⟩ := Option.isSome_iff_exists.mp hy
    exact (select_eq_some hx).2.2
  unfold insertEntry
  by_cases hinternal : e.when = whenInternalDetached
  · have hnone : select objectIds when e = none := by
      by_contra hsome
      exact hwhen ((hkey e (Option.isSome_iff_ne_none.mpr hsome)).symm.trans hinternal)
    rw [if_pos hinternal, hnone, List.filterMap_cons_none hnone, Option.toList_none,
      List.append_nil]
  · rw [if_neg hinternal]
    exact TimedQueue.filterMap_insert hkey e queue

/-- These objects stay attached, and the entries are those which they have enqueued. -/
structure Delivers (objectIds : Finset ℕ) (when : ℤ) (s : Dispatcher τ φ)
    (received : List (ℕ × φ)) : Prop where
  attached : objectIds ⊆ s.objectIds
  notDetaching : ∀ t d, s.detaching t = some d → d.objectId ∉ objectIds
  entries_eq : s.entries.filterMap (select objectIds when) = received

section

variable {objectIds : Finset ℕ} {when : ℤ} {s : Dispatcher τ φ} {received : List (ℕ × φ)}

/-- Another `detach` of a thread for the same object, or its end. -/
theorem Delivers.setDetaching (h : s.Delivers objectIds when received) {t : Thread τ}
    {detach : Option (Detach φ)} (hdetach : ∀ d ∈ detach, d.objectId ∉ objectIds) :
    (s.setDetaching t detach).Delivers objectIds when received := by
  refine ⟨h.attached, fun t' d hd => ?_, h.entries_eq⟩
  by_cases ht : t' = t
  · subst ht
    rw [detaching_setDetaching_self] at hd
    exact hdetach d hd
  · rw [detaching_setDetaching_of_ne ht] at hd
    exact h.notDetaching t' d hd

omit [DecidableEq τ] in
theorem Delivers.enqueue (hwhen : when ≠ whenInternalDetached)
    (h : s.Delivers objectIds when received) (objectId : Option ℕ) (function : φ) (time : ℤ) :
    (s.enqueue objectId function time).Delivers objectIds when
      (received ++ (select objectIds when ⟨s.nextSerial, objectId, function, time⟩).toList) := by
  refine ⟨h.attached, h.notDetaching, ?_⟩
  show ((s.called ++ s.inHand) ++ insertEntry _ s.queue).filterMap _ = _
  rw [List.filterMap_append, filterMap_insertEntry objectIds hwhen, ← List.append_assoc,
    ← List.filterMap_append]
  exact congrArg (· ++ _) h.entries_eq

/-- The functions of `detach` are not among those received. -/
theorem Delivers.detachNext (hwhen : when ≠ whenInternalDetached)
    (h : s.Delivers objectIds when received) (t : Thread τ) :
    (s.detachNext t).Delivers objectIds when received := by
  rcases s.detachNext_cases t with heq | ⟨objectId, function, hdetaching, heq⟩ |
    ⟨objectId, function, hdetaching, -, heq⟩ | ⟨objectId, function, hdetaching, heq⟩ |
    ⟨objectId, function, hdetaching, -, heq⟩ | ⟨objectId, function, hdetaching, -, heq⟩ |
    ⟨objectId, serial, hdetaching, -, heq⟩ <;> rw [heq] <;>
    have hobject := fun d (hd : s.detaching t = some d) => h.notDetaching t d hd
  · exact h
  · have hnotMem := hobject _ hdetaching
    have herased : Delivers objectIds when
        { s with queue := s.queue.filter fun e => e.objectIdValue ≠ some objectId } received := by
      refine ⟨h.attached, h.notDetaching, ?_⟩
      rw [← h.entries_eq]
      show (s.called ++ s.inHand ++ List.filter _ s.queue).filterMap _ =
        (s.called ++ s.inHand ++ s.queue).filterMap _
      simp only [List.filterMap_append, List.filterMap_filter]
      congr 1
      refine List.filterMap_congr fun e _ => ?_
      cases hselect : select objectIds when e with
      | none => exact ite_self _
      | some x =>
          obtain ⟨hvalue, hmem, -⟩ := select_eq_some hselect
          have hne : e.objectIdValue ≠ some objectId := by
            rw [hvalue]
            rintro heq
            exact hnotMem (Option.some.inj heq ▸ hmem)
          exact if_pos (decide_eq_true hne)
    refine herased.setDetaching fun d hd => ?_
    obtain rfl := Option.some.inj hd
    exact hnotMem
  · have hnotMem := hobject _ hdetaching
    refine h.setDetaching fun d hd => ?_
    obtain ⟨f, -, rfl⟩ := Option.map_eq_some_iff.mp hd
    exact hnotMem
  · have hnotMem := hobject _ hdetaching
    refine h.setDetaching fun d hd => ?_
    split_ifs at hd
    · exact absurd hd nofun
    · obtain rfl := Option.some.inj hd
      exact hnotMem
  · exact h.setDetaching nofun
  · have hnotMem := hobject _ hdetaching
    have henqueue := h.enqueue hwhen none function whenInternalDetached
    rw [show (select objectIds when ⟨s.nextSerial, none, function, whenInternalDetached⟩).toList =
      [] from rfl, List.append_nil] at henqueue
    refine henqueue.setDetaching fun d hd => ?_
    obtain rfl := Option.some.inj hd
    exact hnotMem
  · exact h.setDetaching nofun

omit [DecidableEq τ] in
/-- The worker hands on what has been received, and loses nothing. -/
theorem Delivers.workerNext (h : s.Delivers objectIds when received) :
    s.workerNext.Delivers objectIds when received := by
  have hentries := h.entries_eq
  rcases s.workerNext_cases with heq | ⟨hworker, -, heq⟩ | ⟨e, queue, hworker, -, hqueue, heq⟩ |
    ⟨e, hworker, heq⟩ | ⟨e, hworker, -, heq⟩ | ⟨e, hworker, hattached, heq⟩ |
    ⟨e, hworker, -, heq⟩ | ⟨e, hworker, heq⟩ <;> rw [heq]
  · exact h
  · exact ⟨h.attached, h.notDetaching, by simpa [entries, inHand, hworker] using hentries⟩
  · exact ⟨h.attached, h.notDetaching, by simpa [entries, inHand, hworker, hqueue] using hentries⟩
  · exact ⟨h.attached, h.notDetaching, by simpa [entries, inHand, hworker] using hentries⟩
  · exact ⟨h.attached, h.notDetaching, by simpa [entries, inHand, hworker] using hentries⟩
  · -- An entry that is skipped is not one of these.
    have hselect : select objectIds when e = none := by
      by_contra hsome
      obtain ⟨x, hx⟩ := Option.ne_none_iff_exists'.mp hsome
      obtain ⟨hvalue, hmem, -⟩ := select_eq_some hx
      refine hattached fun n hn => ?_
      obtain rfl : x.1 = n := Option.some.inj (hvalue.symm.trans hn)
      exact h.attached hmem
    exact ⟨h.attached, h.notDetaching, by simpa [entries, inHand, hworker, hselect] using hentries⟩
  · exact ⟨h.attached, h.notDetaching, by simpa [entries, inHand, hworker] using hentries⟩
  · exact ⟨h.attached, h.notDetaching, by simpa [entries, inHand, hworker] using hentries⟩

/-- Every step keeps the account. -/
theorem Delivers.step (hwhen : when ≠ whenInternalDetached)
    (h : s.Delivers objectIds when received) {i : Input τ φ}
    (hi : ∀ t objectId function, i = .detach t objectId function → objectId ∉ objectIds) :
    (step s i).Delivers objectIds when (received ++ enqueued objectIds when [i]) := by
  cases i with
  | clock now =>
      show Delivers _ _ _ (received ++ [])
      rw [List.append_nil]
      exact ⟨h.attached, h.notDetaching, h.entries_eq⟩
  | attach objectId =>
      show Delivers _ _ _ (received ++ [])
      rw [List.append_nil]
      exact ⟨h.attached.trans (Finset.subset_insert _ _), h.notDetaching, h.entries_eq⟩
  | enqueue objectId function time =>
      have henqueue := h.enqueue hwhen (some objectId) function time
      rwa [show (select objectIds when ⟨s.nextSerial, some objectId, function, time⟩).toList =
        enqueued objectIds when [(.enqueue objectId function time : Input τ φ)] by
          simp only [select, enqueued, List.filterMap_cons, List.filterMap_nil]
          split_ifs <;> rfl] at henqueue
  | detach t objectId function =>
      have hnotMem := hi t objectId function rfl
      show (s.detach t objectId function).Delivers _ _ (received ++ [])
      rw [List.append_nil]
      unfold Dispatcher.detach
      split_ifs
      · exact h
      · have herased : Delivers objectIds when
            { s with objectIds := s.objectIds.erase objectId } received :=
          ⟨fun n hn => Finset.mem_erase.mpr ⟨fun heq => hnotMem (heq ▸ hn), h.attached hn⟩,
            h.notDetaching, h.entries_eq⟩
        refine herased.setDetaching fun d hd => ?_
        obtain rfl := Option.some.inj hd
        exact hnotMem
      · exact h
  | detachNext t =>
      show Delivers _ _ _ (received ++ [])
      rw [List.append_nil]
      exact h.detachNext hwhen t
  | workerNext =>
      show Delivers _ _ _ (received ++ [])
      rw [List.append_nil]
      exact h.workerNext
  | terminate =>
      show Delivers _ _ _ (received ++ [])
      rw [List.append_nil]
      exact ⟨h.attached, h.notDetaching, h.entries_eq⟩

end

/-- **Each function runs exactly once, in the order of arrival.**  Of objects that stay attached,
the functions for one time that have been called, the one which is about to be called and those in
the queue are the ones that were enqueued, in the same order. -/
theorem delivered_run {attached objectIds : Finset ℕ} (hattached : objectIds ⊆ attached)
    {is : List (Input τ φ)}
    (hdetach : ∀ t objectId function, .detach t objectId function ∈ is → objectId ∉ objectIds)
    {when : ℤ} (hwhen : when ≠ whenInternalDetached) :
    (run attached is).entries.filterMap (select objectIds when) = enqueued objectIds when is := by
  have hdelivers : (run attached is).Delivers objectIds when (enqueued objectIds when is) := by
    induction is using List.reverseRecOn with
    | nil => exact ⟨hattached, nofun, rfl⟩
    | append_singleton is i ih =>
        have hrun := ih fun t objectId function h => hdetach t objectId function (by simp [h])
        have hi : ∀ t objectId function, i = .detach t objectId function → objectId ∉ objectIds :=
          fun t objectId function h => hdetach t objectId function (by simp [h])
        rw [run, Machine.run_concat, enqueued, List.filterMap_append]
        exact hrun.step hwhen hi
  exact hdelivers.entries_eq

/-- Two objects enqueue functions, and one of these is called. -/
def functionCalled : List (Input Unit ℕ) := [
  .enqueue 1 7 whenImmediately, .enqueue 2 8 whenImmediately, .enqueue 1 9 whenImmediately,
  .workerNext, .workerNext, .workerNext]

/-- `delivered_run` for this run. -/
theorem delivered_run_functionCalled :
    (run {1, 2} functionCalled).called.length = 1 ∧
      (run {1, 2} functionCalled).entries.filterMap (select {1, 2} whenImmediately) =
        [(1, 7), (2, 8), (1, 9)] :=
  ⟨by decide, delivered_run (Finset.Subset.refl {1, 2}) (by simp [functionCalled]) (by decide)⟩

/-! ### What stays as it is -/

/-- What does not depend on the queue and on the threads in `detach` is kept by a step of one. -/
theorem detachNext_frame {β : Type} {f : Dispatcher τ φ → β}
    (hsetDetaching : ∀ t detach s, f (s.setDetaching t detach) = f s)
    (hqueue : ∀ queue s, f { s with queue } = f s)
    (henqueue : ∀ objectId function when s, f (s.enqueue objectId function when) = f s)
    (t : Thread τ) (s : Dispatcher τ φ) : f (s.detachNext t) = f s := by
  rcases s.detachNext_cases t with h | ⟨_, _, -, h⟩ | ⟨_, _, -, -, h⟩ | ⟨_, _, -, h⟩ |
    ⟨_, _, -, -, h⟩ | ⟨_, _, -, -, h⟩ | ⟨_, _, -, -, h⟩ <;> rw [h]
  · rw [hsetDetaching, hqueue]
  · rw [hsetDetaching]
  · rw [hsetDetaching]
  · rw [hsetDetaching]
  · rw [hsetDetaching, henqueue]
  · rw [hsetDetaching]

@[simp] theorem worker_detachNext (t : Thread τ) (s : Dispatcher τ φ) :
    (s.detachNext t).worker = s.worker :=
  detachNext_frame (fun _ _ _ => rfl) (fun _ _ => rfl) (fun _ _ _ _ => rfl) t s

@[simp] theorem objectIds_detachNext (t : Thread τ) (s : Dispatcher τ φ) :
    (s.detachNext t).objectIds = s.objectIds :=
  detachNext_frame (fun _ _ _ => rfl) (fun _ _ => rfl) (fun _ _ _ _ => rfl) t s

@[simp] theorem exit_detachNext (t : Thread τ) (s : Dispatcher τ φ) :
    (s.detachNext t).exit = s.exit :=
  detachNext_frame (fun _ _ _ => rfl) (fun _ _ => rfl) (fun _ _ _ _ => rfl) t s

@[simp] theorem returned_detachNext (t : Thread τ) (s : Dispatcher τ φ) :
    (s.detachNext t).returned = s.returned :=
  detachNext_frame (fun _ _ _ => rfl) (fun _ _ => rfl) (fun _ _ _ _ => rfl) t s

@[simp] theorem runningFunctionObjectId_detachNext (t : Thread τ) (s : Dispatcher τ φ) :
    (s.detachNext t).runningFunctionObjectId = s.runningFunctionObjectId :=
  detachNext_frame (fun _ _ _ => rfl) (fun _ _ => rfl) (fun _ _ _ _ => rfl) t s

/-- The other threads stay where they are. -/
theorem detaching_detachNext_of_ne {t t' : Thread τ} (ht : t' ≠ t) (s : Dispatcher τ φ) :
    (s.detachNext t).detaching t' = s.detaching t' := by
  rcases s.detachNext_cases t with h | ⟨_, _, -, h⟩ | ⟨_, _, -, -, h⟩ | ⟨_, _, -, h⟩ |
    ⟨_, _, -, -, h⟩ | ⟨_, _, -, -, h⟩ | ⟨_, _, -, -, h⟩ <;> rw [h]
  all_goals exact detaching_setDetaching_of_ne ht _ _

omit [DecidableEq τ] in
@[simp] theorem detaching_workerNext (s : Dispatcher τ φ) :
    s.workerNext.detaching = s.detaching := by
  rcases s.workerNext_cases with h | ⟨-, -, h⟩ | ⟨_, _, -, -, -, h⟩ | ⟨_, -, h⟩ | ⟨_, -, -, h⟩ |
    ⟨_, -, -, h⟩ | ⟨_, -, -, h⟩ | ⟨_, -, h⟩ <;> rw [h]

omit [DecidableEq τ] in
@[simp] theorem objectIds_workerNext (s : Dispatcher τ φ) :
    s.workerNext.objectIds = s.objectIds := by
  rcases s.workerNext_cases with h | ⟨-, -, h⟩ | ⟨_, _, -, -, -, h⟩ | ⟨_, -, h⟩ | ⟨_, -, -, h⟩ |
    ⟨_, -, -, h⟩ | ⟨_, -, -, h⟩ | ⟨_, -, h⟩ <;> rw [h]

omit [DecidableEq τ] in
@[simp] theorem exit_workerNext (s : Dispatcher τ φ) : s.workerNext.exit = s.exit := by
  rcases s.workerNext_cases with h | ⟨-, -, h⟩ | ⟨_, _, -, -, -, h⟩ | ⟨_, -, h⟩ | ⟨_, -, -, h⟩ |
    ⟨_, -, -, h⟩ | ⟨_, -, -, h⟩ | ⟨_, -, h⟩ <;> rw [h]

/-- **What `detach` does first**: nothing, or it takes the object out of those which are attached.
-/
theorem detach_cases (t : Thread τ) (objectId : ℕ) (function : Option φ) (s : Dispatcher τ φ) :
    s.detach t objectId function = s ∨
    s.detaching t = none ∧ objectId ∈ s.objectIds ∧ (t = .worker → s.isCalling = true) ∧
      s.detach t objectId function =
        { s with objectIds := s.objectIds.erase objectId }.setDetaching t
          (some ⟨objectId, .eraseEntries function⟩) := by
  unfold detach
  split_ifs with hfree hmem
  · exact .inl rfl
  · rw [not_or, not_and, Option.not_isSome_iff_eq_none, Bool.not_eq_false] at hfree
    exact .inr ⟨hfree.1, hmem, hfree.2, rfl⟩
  · exact .inl rfl

/-! ### No function of a detached object runs -/

/-- The worker thread is in a function of the object. -/
def Calling (s : Dispatcher τ φ) (objectId : ℕ) : Prop :=
  ∃ e, s.worker = .calling e ∧ e.objectIdValue = some objectId

/-- The thread is in `detach` and may still have to wait for the object. -/
def Erasing (s : Dispatcher τ φ) (t : Thread τ) (objectId : ℕ) : Prop :=
  ∃ function, s.detaching t = some ⟨objectId, .eraseEntries function⟩ ∨
    s.detaching t = some ⟨objectId, .wait function⟩

/-- With this input the thread begins to detach the object. -/
def Detaches (s : Dispatcher τ φ) (t : Thread τ) (objectId : ℕ) (i : Input τ φ) : Prop :=
  (∃ function, i = .detach t objectId function) ∧ s.detaching t = none ∧ objectId ∈ s.objectIds

/-- What is announced: the object of the entry from before its function until after it. -/
def RunningSound (s : Dispatcher τ φ) : Prop :=
  s.runningFunctionObjectId = match s.worker with
    | .announced e | .calling e | .called e => some e.objectIdValue
    | .waiting | .taken _ | .exited => none

/-- Every step keeps what is known about the function that runs. -/
theorem RunningSound.step {s : Dispatcher τ φ} (h : s.RunningSound) (i : Input τ φ) :
    (step s i).RunningSound := by
  cases i with
  | clock | attach | enqueue | terminate => exact h
  | detach t objectId function =>
      show (s.detach t objectId function).RunningSound
      rcases s.detach_cases t objectId function with heq | ⟨-, -, -, heq⟩ <;> rw [heq] <;> exact h
  | detachNext t =>
      show (s.detachNext t).RunningSound
      rw [RunningSound, runningFunctionObjectId_detachNext, worker_detachNext]
      exact h
  | workerNext =>
      show s.workerNext.RunningSound
      unfold RunningSound at h
      rcases s.workerNext_cases with heq | ⟨hworker, -, heq⟩ | ⟨_, _, hworker, -, -, heq⟩ |
        ⟨_, hworker, heq⟩ | ⟨_, hworker, -, heq⟩ | ⟨_, hworker, -, heq⟩ | ⟨_, hworker, -, heq⟩ |
        ⟨_, hworker, heq⟩ <;> rw [heq]
      · exact h
      all_goals
        rw [hworker] at h
        first | exact h | rfl

theorem runningSound_run (objectIds : Finset ℕ) (is : List (Input τ φ)) :
    (run objectIds is).RunningSound := by
  have hkeep : ∀ (s : Dispatcher τ φ) i, s.RunningSound → (Dispatcher.step s i).RunningSound :=
    fun _ i h => h.step i
  exact @Machine.run_invariant _ _ Dispatcher.step RunningSound hkeep { objectIds } rfl is

/-- An object is known because it has been attached. -/
theorem mem_objectIds_step {s : Dispatcher τ φ} {i : Input τ φ} {objectId : ℕ}
    (h : objectId ∈ (step s i).objectIds) : objectId ∈ s.objectIds ∨ i = .attach objectId := by
  cases i with
  | clock | enqueue | terminate => exact .inl h
  | attach n =>
      rcases Finset.mem_insert.mp h with rfl | h
      · exact .inr rfl
      · exact .inl h
  | detach t n function =>
      left
      change objectId ∈ (s.detach t n function).objectIds at h
      rcases s.detach_cases t n function with heq | ⟨-, -, -, heq⟩ <;> rw [heq] at h
      · exact h
      · exact Finset.mem_of_mem_erase h
  | detachNext t =>
      left
      change objectId ∈ (s.detachNext t).objectIds at h
      rwa [objectIds_detachNext] at h
  | workerNext =>
      left
      change objectId ∈ s.workerNext.objectIds at h
      rwa [objectIds_workerNext] at h

/-- A function is called only if its object is attached. -/
theorem calling_step {s : Dispatcher τ φ} {i : Input τ φ} {objectId : ℕ}
    (h : (step s i).Calling objectId) : s.Calling objectId ∨ objectId ∈ s.objectIds := by
  obtain ⟨e, hcalling, he⟩ := h
  cases i with
  | clock | attach | enqueue | terminate => exact .inl ⟨e, hcalling, he⟩
  | detach t n function =>
      change (s.detach t n function).worker = _ at hcalling
      rcases s.detach_cases t n function with heq | ⟨-, -, -, heq⟩ <;> rw [heq] at hcalling <;>
        exact .inl ⟨e, hcalling, he⟩
  | detachNext t =>
      change (s.detachNext t).worker = _ at hcalling
      rw [worker_detachNext] at hcalling
      exact .inl ⟨e, hcalling, he⟩
  | workerNext =>
      change s.workerNext.worker = _ at hcalling
      rcases s.workerNext_cases with heq | ⟨-, -, heq⟩ | ⟨_, _, -, -, -, heq⟩ | ⟨_, -, heq⟩ |
        ⟨e', -, hattached, heq⟩ | ⟨_, -, -, heq⟩ | ⟨_, -, -, heq⟩ | ⟨_, -, heq⟩ <;>
        rw [heq] at hcalling
      · exact .inl ⟨e, hcalling, he⟩
      · exact absurd hcalling nofun
      · exact absurd hcalling nofun
      · exact absurd hcalling nofun
      · obtain rfl : e' = e := Worker.calling.inj hcalling
        exact .inr (hattached objectId he)
      · exact absurd hcalling nofun
      · exact absurd hcalling nofun
      · exact absurd hcalling nofun

/-- A thread leaves the wait of `detach` only when no function of the object runs. -/
theorem erasing_step {s : Dispatcher τ φ} (hrunning : s.RunningSound) {t : τ} {objectId : ℕ}
    (h : s.Erasing (.other t) objectId) (i : Input τ φ) :
    (step s i).Erasing (.other t) objectId ∨ ¬ (step s i).Calling objectId := by
  obtain ⟨function, hdetaching⟩ := h
  cases i with
  | clock | attach | enqueue | terminate => exact .inl ⟨function, hdetaching⟩
  | detach t' n f =>
      left
      show (s.detach t' n f).Erasing _ _
      rcases s.detach_cases t' n f with heq | ⟨hnone, -, -, heq⟩ <;> rw [heq]
      · exact ⟨function, hdetaching⟩
      · have hne : Thread.other t ≠ t' := by
          rintro rfl
          rw [hnone] at hdetaching
          exact hdetaching.elim nofun nofun
        unfold Erasing
        rw [detaching_setDetaching_of_ne hne]
        exact ⟨function, hdetaching⟩
  | detachNext t' =>
      show (s.detachNext t').Erasing _ _ ∨ ¬ (s.detachNext t').Calling _
      by_cases ht : Thread.other t = t'
      · subst ht
        rcases hdetaching with hdetaching | hdetaching
        · left
          refine ⟨function, .inr ?_⟩
          rw [detachNext, hdetaching]
          exact detaching_setDetaching_self ..
        · by_cases hannounced : s.runningFunctionObjectId = some (some objectId)
          · have hwaits : s.detachNext (.other t) = s := by
              rw [detachNext, hdetaching]
              exact if_pos ⟨nofun, hannounced⟩
            rw [hwaits]
            exact .inl ⟨function, .inr hdetaching⟩
          · right
            rintro ⟨e, hcalling, he⟩
            rw [worker_detachNext] at hcalling
            rw [RunningSound, hcalling] at hrunning
            exact hannounced (hrunning.trans (congrArg some he))
      · left
        unfold Erasing
        rw [detaching_detachNext_of_ne ht]
        exact ⟨function, hdetaching⟩
  | workerNext =>
      left
      show s.workerNext.Erasing _ _
      unfold Erasing
      rw [detaching_workerNext]
      exact ⟨function, hdetaching⟩

/-- **Once `detach` has returned, no function of the object runs.**  Another thread than the worker
thread has detached the object, which has not been attached again, and that thread is past the wait
of `detach`: then the worker thread is in no function of the object. -/
theorem not_calling_of_detached (objectIds : Finset ℕ) (is : List (Input τ φ)) {t : τ}
    {objectId : ℕ}
    (hdetached : History.Since
      (fun before i => (run objectIds before).Detaches (.other t) objectId i)
      (· ≠ .attach objectId) is)
    (hreturned : ¬ (run objectIds is).Erasing (.other t) objectId) :
    ¬ (run objectIds is).Calling objectId := by
  have hsince : objectId ∉ (run objectIds is).objectIds ∧
      ((run objectIds is).Erasing (.other t) objectId ∨ ¬ (run objectIds is).Calling objectId) := by
    clear hreturned
    induction is using List.reverseRecOn with
    | nil => exact absurd hdetached (History.not_since_nil _ _)
    | append_singleton is i ih =>
        rw [run, Machine.run_concat, ← run]
        rcases (History.since_concat _ _ is i).mp hdetached with
          ⟨⟨function, rfl⟩, hnone, hmem⟩ | ⟨hdetached, hi⟩
        · have hstep : Dispatcher.step (run objectIds is) (.detach (.other t) objectId function) =
              { run objectIds is with
                objectIds := (run objectIds is).objectIds.erase objectId }.setDetaching (.other t)
                (some ⟨objectId, .eraseEntries function⟩) := by
            show (run objectIds is).detach _ _ _ = _
            rw [detach, if_neg (by simp [hnone]), if_neg (not_not.mpr hmem)]
          rw [hstep]
          exact ⟨Finset.notMem_erase _ _, .inl ⟨function, .inl (detaching_setDetaching_self ..)⟩⟩
        · obtain ⟨hnotMem, herasing⟩ := ih hdetached
          refine ⟨fun hmem => (mem_objectIds_step hmem).elim hnotMem hi, ?_⟩
          rcases herasing with herasing | hcalling
          · exact erasing_step (runningSound_run objectIds is) herasing i
          · exact .inr fun h => (calling_step h).elim hcalling hnotMem
  exact hsince.2.resolve_left hreturned

/-- A thread detaches the object 1 while its function is being called, and waits for its end. -/
def detachedWhileCalling : List (Input Unit ℕ) := [
  .enqueue 1 7 whenImmediately, .workerNext, .workerNext, .workerNext,
  .detach (.other ()) 1 none, .detachNext (.other ()), .detachNext (.other ()),
  .workerNext, .workerNext, .detachNext (.other ())]

/-- `not_calling_of_detached` for this run: while the thread waits, the function is still running.
-/
theorem not_calling_of_detached_whileCalling :
    (run {1} (detachedWhileCalling.take 7)).Calling 1 ∧
      ¬ (run {1} detachedWhileCalling).Calling 1 := by
  refine ⟨⟨⟨0, some 1, 7, 1⟩, by decide, rfl⟩, @not_calling_of_detached _ _ _ {1} _ () 1 ?_ ?_⟩
  · exact ⟨detachedWhileCalling.take 4, _, detachedWhileCalling.drop 5, rfl,
      ⟨⟨none, rfl⟩, by decide, by decide⟩, by decide⟩
  · have hnone : (run {1} detachedWhileCalling).detaching (.other ()) = none := by decide
    rintro ⟨function, h | h⟩ <;> exact absurd (hnone.symm.trans h) nofun

end Dispatcher

end Karabiner.Dispatcher
