import Mathlib.Algebra.BigOperators.Group.List.Basic
import Mathlib.Algebra.Ring.Nat
import Mathlib.Data.List.Basic

/-!
# Workers

A worker has a state and a queue of jobs, which it runs one after another.  A job may enqueue
further jobs, and it is run at a moment that it does not choose.

A `View` is a part of the state that every job changes in a known way.  What a job enqueues counts
as part of that job, so it must not matter when it is run.

* `settled_runJob`, `settled_enqueue` — what a view comes to once all jobs have been run does not
  change when one of them is, and a new job adds its change to it.
* `jobs_runJobs` — if every job is worth more than what it enqueues, the jobs come to an end.
-/

/-- A state and the jobs that are to be run. -/
structure Worker (σ ι : Type*) where
  state : σ
  jobs : List ι

namespace Worker

variable {γ σ ι α : Type*}

/-- Enqueue jobs. -/
def enqueue (jobs : List ι) (w : Worker σ ι) : Worker σ ι := ⟨w.state, w.jobs ++ jobs⟩

/-- Change the state outside of any job. -/
def modify (f : σ → σ) (w : Worker σ ι) : Worker σ ι := ⟨f w.state, w.jobs⟩

/-- Run the first job, at the moment `c`. -/
def runJob (exec : γ → ι → σ → σ × List ι) (c : γ) (w : Worker σ ι) : Worker σ ι :=
  match w.jobs with
  | [] => w
  | job :: jobs => ⟨(exec c job w.state).1, jobs ++ (exec c job w.state).2⟩

/-- Run as many jobs as there are moments. -/
def runJobs (exec : γ → ι → σ → σ × List ι) (cs : List γ) (w : Worker σ ι) : Worker σ ι :=
  cs.foldl (fun w c => w.runJob exec c) w

/-! ### Views -/

/-- **A view** of the state, for jobs that are `allowed`. -/
structure View (exec : γ → ι → σ → σ × List ι) (allowed : ι → Prop) (α : Type*) where
  current : σ → α
  apply : α → ι → α
  current_exec : ∀ c job s, allowed job →
    (exec c job s).2.foldl apply (current (exec c job s).1) = apply (current s) job
  allowed_spawned : ∀ c job s, allowed job → ∀ spawned ∈ (exec c job s).2, allowed spawned
  apply_comm : ∀ c job s, ∀ spawned ∈ (exec c job s).2, ∀ x other, allowed other →
    apply (apply x spawned) other = apply (apply x other) spawned

variable {exec : γ → ι → σ → σ × List ι} {allowed : ι → Prop}

/-- What the view comes to, once all jobs have been run. -/
def View.settled (v : View exec allowed α) (w : Worker σ ι) : α :=
  w.jobs.foldl v.apply (v.current w.state)

/-- All jobs are allowed. -/
def Allows (allowed : ι → Prop) (w : Worker σ ι) : Prop := ∀ job ∈ w.jobs, allowed job

theorem foldl_foldl_comm {f : α → ι → α} {before after : List ι}
    (h : ∀ i ∈ before, ∀ j ∈ after, ∀ x, f (f x i) j = f (f x j) i) (x : α) :
    after.foldl f (before.foldl f x) = before.foldl f (after.foldl f x) := by
  induction after generalizing x with
  | nil => rfl
  | cons j after ih =>
      have hhead : ∀ x, f (before.foldl f x) j = before.foldl f (f x j) := by
        intro x
        clear ih
        induction before generalizing x with
        | nil => rfl
        | cons i before ihbefore =>
            rw [List.foldl_cons, List.foldl_cons,
              ihbefore fun i hi => h i (List.mem_cons_of_mem _ hi),
              h i List.mem_cons_self j List.mem_cons_self]
      rw [List.foldl_cons, List.foldl_cons, hhead,
        ih fun i hi j hj => h i hi j (List.mem_cons_of_mem _ hj)]

theorem View.settled_enqueue (v : View exec allowed α) (jobs : List ι) (w : Worker σ ι) :
    v.settled (w.enqueue jobs) = jobs.foldl v.apply (v.settled w) :=
  List.foldl_append

/-- A change that the view does not see. -/
theorem View.settled_modify (v : View exec allowed α) {f : σ → σ} {w : Worker σ ι}
    (h : v.current (f w.state) = v.current w.state) : v.settled (w.modify f) = v.settled w :=
  congrArg (w.jobs.foldl v.apply) h

/-- **Running a job does not change what the view comes to.** -/
theorem View.settled_runJob (v : View exec allowed α) {w : Worker σ ι} (hallows : w.Allows allowed)
    (c : γ) : v.settled (w.runJob exec c) = v.settled w := by
  obtain ⟨s, jobs⟩ := w
  cases jobs with
  | nil => rfl
  | cons job jobs =>
      have hcomm : ∀ i ∈ (exec c job s).2, ∀ j ∈ jobs, ∀ x,
          v.apply (v.apply x i) j = v.apply (v.apply x j) i :=
        fun i hi j hj x => v.apply_comm c job s i hi x j (hallows j (List.mem_cons_of_mem _ hj))
      show (jobs ++ (exec c job s).2).foldl v.apply (v.current (exec c job s).1) = _
      rw [List.foldl_append, ← foldl_foldl_comm hcomm,
        v.current_exec c job s (hallows job List.mem_cons_self)]
      rfl

theorem View.settled_of_jobs_eq_nil (v : View exec allowed α) {w : Worker σ ι} (h : w.jobs = []) :
    v.settled w = v.current w.state := by
  rw [settled, h, List.foldl_nil]

theorem Allows.enqueue {w : Worker σ ι} (h : w.Allows allowed) {jobs : List ι}
    (hjobs : ∀ job ∈ jobs, allowed job) : (w.enqueue jobs).Allows allowed := by
  intro job hjob
  rcases List.mem_append.mp hjob with hjob | hjob
  · exact h job hjob
  · exact hjobs job hjob

theorem View.allows_runJob (v : View exec allowed α) {w : Worker σ ι} (h : w.Allows allowed)
    (c : γ) : (w.runJob exec c).Allows allowed := by
  obtain ⟨s, jobs⟩ := w
  cases jobs with
  | nil => exact h
  | cons job jobs =>
      intro job' hjob'
      rcases List.mem_append.mp hjob' with hjob' | hjob'
      · exact h job' (List.mem_cons_of_mem _ hjob')
      · exact v.allowed_spawned c job s (h job List.mem_cons_self) job' hjob'

/-! ### The end of the jobs -/

/-- How much there is to do, if a job is worth its `rank`. -/
def load (rank : ι → ℕ) (w : Worker σ ι) : ℕ := (w.jobs.map rank).sum

/-- Every job is worth something, and more than what it enqueues. -/
structure Shrinks (exec : γ → ι → σ → σ × List ι) (rank : ι → ℕ) : Prop where
  rank_pos : ∀ job, 0 < rank job
  rank_spawned : ∀ c job s, ((exec c job s).2.map rank).sum < rank job

/-- Every job that runs takes away from the load. -/
theorem load_runJob {rank : ι → ℕ} (hrank : Shrinks exec rank) (c : γ) (w : Worker σ ι) :
    (w.runJob exec c).load rank ≤ w.load rank - 1 := by
  obtain ⟨s, jobs⟩ := w
  cases jobs with
  | nil => exact Nat.zero_le _
  | cons job jobs =>
      have hspawned := hrank.rank_spawned c job s
      show ((jobs ++ (exec c job s).2).map rank).sum ≤ ((job :: jobs).map rank).sum - 1
      rw [List.map_append, List.sum_append, List.map_cons, List.sum_cons]
      omega

/-- **The jobs come to an end.** -/
theorem jobs_runJobs {rank : ι → ℕ} (hrank : Shrinks exec rank) {cs : List γ} {w : Worker σ ι}
    (h : w.load rank ≤ cs.length) : (w.runJobs exec cs).jobs = [] := by
  induction cs generalizing w with
  | nil =>
      obtain ⟨s, jobs⟩ := w
      cases jobs with
      | nil => rfl
      | cons job jobs =>
          have hpos := hrank.rank_pos job
          rw [load, List.map_cons, List.sum_cons, List.length_nil] at h
          omega
  | cons c cs ih =>
      have hload : (w.runJob exec c).load rank ≤ w.load rank - 1 := load_runJob hrank c w
      rw [List.length_cons] at h
      exact ih (hload.trans (by omega))

end Worker
