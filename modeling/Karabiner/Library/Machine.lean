import Mathlib.Algebra.BigOperators.Group.List.Basic
import Mathlib.Data.List.Basic
import Mathlib.Order.WellFounded

/-!
# Deterministic machines and their runs

A machine is a step function `step : σ → ι → σ`.  Everything nondeterministic about a system
(arrivals, clock values, timer firings, interleavings) is put into the input `ι`, so a run is a
fold over the list of its inputs and a claim about every interleaving is a claim about every
list.

* `run` and `run_append` — the fold, and how runs compose.
* `Steps P` — every step of a run meets a condition `P` on the state before it and its input.
* `run_invariant` / `steps_invariant` — the induction rule, without and with such a condition.
* `steps_outputs`, `outputs_eq_flatMap` — the rules for what a machine emits.
* `steps_iff` — the guard that an invariant needs, exactly.
* `run_simulation` — two machines over the same inputs that keep a relation.
* `outputs` — what a machine with outputs emits along a run.
* `received` and `steps_conserved` — the rule for a machine that emits or keeps what it receives.
* `along` and `exists_along_of_descent` — an endless sequence of inputs, and the rule that something
  happens along it when everything else lowers a measure.
* `exists_run_of_descent` — inputs that lead to a goal.
-/

namespace Machine

variable {σ τ ι ο : Type*}

/-- The state a run reaches from `s` over the inputs `is`. -/
def run (step : σ → ι → σ) (s : σ) (is : List ι) : σ := is.foldl step s

@[simp] theorem run_nil (step : σ → ι → σ) (s : σ) : run step s [] = s := rfl

@[simp] theorem run_cons (step : σ → ι → σ) (s : σ) (i : ι) (is : List ι) :
    run step s (i :: is) = run step (step s i) is := rfl

theorem run_append (step : σ → ι → σ) (s : σ) (is js : List ι) :
    run step s (is ++ js) = run step (run step s is) js :=
  List.foldl_append

theorem run_concat (step : σ → ι → σ) (s : σ) (is : List ι) (i : ι) :
    run step s (is ++ [i]) = step (run step s is) i := by
  rw [run_append, run_cons, run_nil]

/-- Every step of the run from `s` over `is` meets `P`, a condition on the state before the step
and on the step's input. -/
def Steps (step : σ → ι → σ) (P : σ → ι → Prop) : σ → List ι → Prop
  | _, [] => True
  | s, i :: is => P s i ∧ Steps step P (step s i) is

@[simp] theorem steps_nil (step : σ → ι → σ) (P : σ → ι → Prop) (s : σ) :
    Steps step P s [] := trivial

@[simp] theorem steps_cons (step : σ → ι → σ) (P : σ → ι → Prop) (s : σ) (i : ι)
    (is : List ι) :
    Steps step P s (i :: is) ↔ P s i ∧ Steps step P (step s i) is := Iff.rfl

theorem steps_append (step : σ → ι → σ) (P : σ → ι → Prop) (s : σ) (is js : List ι) :
    Steps step P s (is ++ js) ↔ Steps step P s is ∧ Steps step P (run step s is) js := by
  induction is generalizing s with
  | nil => simp
  | cons i is ih => simp [ih, and_assoc]

/-- Every step of a run meets `P`, step by step. -/
theorem steps_iff_forall (step : σ → ι → σ) (P : σ → ι → Prop) (s : σ) (is : List ι) :
    Steps step P s is ↔
      ∀ before i after, is = before ++ i :: after → P (run step s before) i := by
  constructor
  · rintro h before i after rfl
    exact ((steps_append step P s before (i :: after)).mp h).2.1
  · induction is generalizing s with
    | nil => exact fun _ => trivial
    | cons i is ih =>
        intro h
        refine ⟨h [] i is rfl, ih (step s i) ?_⟩
        rintro before j after rfl
        exact h (i :: before) j after rfl

/-- **The invariant rule.**  What every step keeps holds wherever a run ends. -/
theorem run_invariant {step : σ → ι → σ} {Inv : σ → Prop}
    (keep : ∀ s i, Inv s → Inv (step s i)) {s : σ} (init : Inv s) (is : List ι) :
    Inv (run step s is) := by
  induction is generalizing s with
  | nil => exact init
  | cons i is ih => exact ih (keep s i init)

/-- **The guarded invariant rule**: the steps need only keep `Inv` when they meet `P`. -/
theorem steps_invariant {step : σ → ι → σ} {P : σ → ι → Prop} {Inv : σ → Prop}
    (keep : ∀ s i, P s i → Inv s → Inv (step s i)) {s : σ} (init : Inv s) {is : List ι}
    (ok : Steps step P s is) : Inv (run step s is) := by
  induction is generalizing s with
  | nil => exact init
  | cons i is ih => exact ih (keep s i ok.1 init) ok.2

/-- **The exact guard of an invariant.**  If a step from a state with `Inv` keeps `Inv` exactly when
it meets `P`, then `Inv` holds all along a run exactly when all its steps meet `P`.  `Side` is
what both directions may use about the states in between. -/
theorem steps_iff {step : σ → ι → σ} {P : σ → ι → Prop} {Inv Side : σ → Prop}
    (side : ∀ s i, Side s → Inv s → Side (step s i))
    (exact_ : ∀ s i, Side s → Inv s → (Inv (step s i) ↔ P s i)) {s : σ} (hside : Side s)
    (hinv : Inv s) (is : List ι) :
    (∀ before after, is = before ++ after → Inv (run step s before)) ↔ Steps step P s is := by
  induction is generalizing s with
  | nil =>
      refine ⟨fun _ => trivial, fun _ before after h => ?_⟩
      obtain ⟨rfl, rfl⟩ := List.append_eq_nil_iff.mp h.symm
      exact hinv
  | cons i is ih =>
      have hexact := exact_ s i hside hinv
      constructor
      · intro hall
        have hstep : Inv (step s i) := hall [i] is rfl
        refine ⟨hexact.mp hstep, (ih (side s i hside hinv) hstep).mp ?_⟩
        rintro before after rfl
        exact hall (i :: before) after rfl
      · rintro ⟨hP, hrest⟩ before after h
        have hstep := hexact.mpr hP
        cases before with
        | nil => exact hinv
        | cons j before =>
            obtain ⟨rfl, rfl⟩ := List.cons_eq_cons.mp h
            exact (ih (side s i hside hinv) hstep).mpr hrest before after rfl

/-- **The simulation rule** for two machines driven by the same inputs. -/
theorem run_simulation {step : σ → ι → σ} {step' : τ → ι → τ} {R : σ → τ → Prop}
    (keep : ∀ s t i, R s t → R (step s i) (step' t i)) {s : σ} {t : τ} (init : R s t)
    (is : List ι) : R (run step s is) (run step' t is) := by
  induction is generalizing s t with
  | nil => exact init
  | cons i is ih => exact ih (keep s t i init)

/-- What a machine with outputs emits along a run, in order. -/
def outputs (step : σ → ι → σ × List ο) : σ → List ι → List ο
  | _, [] => []
  | s, i :: is => (step s i).2 ++ outputs step (step s i).1 is

@[simp] theorem outputs_nil (step : σ → ι → σ × List ο) (s : σ) : outputs step s [] = [] := rfl

@[simp] theorem outputs_cons (step : σ → ι → σ × List ο) (s : σ) (i : ι) (is : List ι) :
    outputs step s (i :: is) = (step s i).2 ++ outputs step (step s i).1 is := rfl

theorem outputs_append (step : σ → ι → σ × List ο) (s : σ) (is js : List ι) :
    outputs step s (is ++ js) =
      outputs step s is ++ outputs step (run (fun s i => (step s i).1) s is) js := by
  induction is generalizing s with
  | nil => rfl
  | cons i is ih =>
      rw [List.cons_append, outputs_cons, outputs_cons, ih, List.append_assoc, run_cons]

theorem outputs_concat (step : σ → ι → σ × List ο) (s : σ) (is : List ι) (i : ι) :
    outputs step s (is ++ [i]) =
      outputs step s is ++ (step (run (fun s i => (step s i).1) s is) i).2 := by
  rw [outputs_append, outputs_cons, outputs_nil, List.append_nil]

/-- **The rule for outputs that depend on the input alone**: when every step keeps `Inv` and emits
from a state with `Inv` what `g` says, so does a run. -/
theorem outputs_eq_flatMap {step : σ → ι → σ × List ο} {Inv : σ → Prop} {g : ι → List ο}
    (keep : ∀ s i, Inv s → Inv (step s i).1 ∧ (step s i).2 = g i) {s : σ} (init : Inv s)
    (is : List ι) : outputs step s is = is.flatMap g := by
  induction is generalizing s with
  | nil => rfl
  | cons i is ih =>
      obtain ⟨hinv, hemits⟩ := keep s i init
      rw [outputs_cons, List.flatMap_cons, hemits, ih hinv]

/-- **The guarded rule for outputs**: when every step that meets `P` keeps `Inv` and emits only
outputs with `Q`, so does a run of such steps. -/
theorem steps_outputs {step : σ → ι → σ × List ο} {P : σ → ι → Prop} {Inv : σ → Prop}
    {Q : ο → Prop} (keep : ∀ s i, P s i → Inv s → Inv (step s i).1 ∧ ∀ o ∈ (step s i).2, Q o)
    {s : σ} (init : Inv s) {is : List ι} (ok : Steps (fun s i => (step s i).1) P s is) :
    ∀ o ∈ outputs step s is, Q o := by
  induction is generalizing s with
  | nil => simp
  | cons i is ih =>
      obtain ⟨hinv, hemits⟩ := keep s i ok.1 init
      intro o ho
      rcases List.mem_append.mp ho with ho | ho
      · exact hemits o ho
      · exact ih hinv ok.2 o ho

section

variable {M : Type*} [AddMonoid M]

/-- What a machine receives along a run: at every step the `amount` of the state before it and of
its input. -/
def received (step : σ → ι → σ) (amount : σ → ι → M) : σ → List ι → M
  | _, [] => 0
  | s, i :: is => amount s i + received step amount (step s i) is

@[simp] theorem received_nil (step : σ → ι → σ) (amount : σ → ι → M) (s : σ) :
    received step amount s [] = 0 := rfl

@[simp] theorem received_cons (step : σ → ι → σ) (amount : σ → ι → M) (s : σ) (i : ι)
    (is : List ι) :
    received step amount s (i :: is) = amount s i + received step amount (step s i) is := rfl

/-- What a machine receives when the amount depends on the input alone. -/
theorem received_eq_sum (step : σ → ι → σ) (amount : ι → M) (s : σ) (is : List ι) :
    received step (fun _ => amount) s is = (is.map amount).sum := by
  induction is generalizing s with
  | nil => rfl
  | cons i is ih => rw [received_cons, List.map_cons, List.sum_cons, ih]

/-- **The conservation rule**: when every step that meets `P` emits or keeps what it receives, so
does a run of such steps. -/
theorem steps_conserved {step : σ → ι → σ × List ο} {P : σ → ι → Prop} {Inv : σ → Prop}
    (kept : σ → M) (weight : ο → M) (amount : σ → ι → M)
    (keep : ∀ s i, P s i → Inv s → Inv (step s i).1 ∧
      ((step s i).2.map weight).sum + kept (step s i).1 = kept s + amount s i)
    {s : σ} (init : Inv s) {is : List ι} (ok : Steps (fun s i => (step s i).1) P s is) :
    ((outputs step s is).map weight).sum + kept (run (fun s i => (step s i).1) s is) =
      kept s + received (fun s i => (step s i).1) amount s is := by
  induction is generalizing s with
  | nil => simp
  | cons i is ih =>
      obtain ⟨hinv, hstep⟩ := keep s i ok.1 init
      rw [outputs_cons, List.map_append, List.sum_append, run_cons, add_assoc, ih hinv ok.2,
        ← add_assoc, hstep, add_assoc, received_cons]

end

/-- The states along an endless sequence of inputs. -/
def along (step : σ → ι → σ) (input : ℕ → ι) (s : σ) : ℕ → σ
  | 0 => s
  | n + 1 => step (along step input s n) (input n)

/-- **The descent rule.**  A step at which `Q` does not hold keeps `Inv` and lowers a measure that
may look at the next input, so `Q` holds at some point of every endless sequence of inputs. -/
theorem exists_along_of_descent {α : Type*} [LT α] [WellFoundedLT α] {step : σ → ι → σ}
    {input : ℕ → ι} {Inv : σ → Prop} {Q : σ → ι → Prop} (measure : σ → ι → α)
    (descent : ∀ s n, Inv s → Q s (input n) ∨ Inv (step s (input n)) ∧
      measure (step s (input n)) (input (n + 1)) < measure s (input n))
    {s : σ} (init : Inv s) : ∃ n, Q (along step input s n) (input n) := by
  by_contra hnever
  have hnever (n : ℕ) : ¬ Q (along step input s n) (input n) := fun hQ => hnever ⟨n, hQ⟩
  have hinv (n : ℕ) : Inv (along step input s n) := by
    induction n with
    | zero => exact init
    | succ n ih => exact ((descent _ n ih).resolve_left (hnever n)).1
  obtain ⟨n, hn⟩ := WellFounded.not_rel_apply_succ (r := (· < ·))
    fun n => measure (along step input s n) (input n)
  exact hn ((descent _ n (hinv n)).resolve_left (hnever n)).2

/-- **The progress rule.**  If in every state with `Inv` and without `Goal` some input with `P`
keeps `Inv` and lowers a measure, then such inputs lead to a state with `Goal`. -/
theorem exists_run_of_descent {α : Type*} [LT α] [WellFoundedLT α] {step : σ → ι → σ}
    {P : ι → Prop} {Inv Goal : σ → Prop} (measure : σ → α)
    (descent : ∀ s, Inv s → Goal s ∨
      ∃ i, P i ∧ Inv (step s i) ∧ measure (step s i) < measure s)
    {s : σ} (init : Inv s) : ∃ is, (∀ i ∈ is, P i) ∧ Goal (run step s is) := by
  induction h : measure s using WellFoundedLT.induction generalizing s with
  | ind a ih =>
      subst h
      rcases descent s init with hgoal | ⟨i, hi, hstep, hlt⟩
      · exact ⟨[], nofun, hgoal⟩
      · obtain ⟨is, his, hgoal⟩ := ih _ hlt hstep rfl
        exact ⟨i :: is, List.forall_mem_cons.mpr ⟨hi, his⟩, hgoal⟩

end Machine
