import Karabiner.Library.Machine
import Karabiner.Manipulator.Environment
import Mathlib.Data.List.Induction

/-!
# What an expression condition reads

`condition_manager.hpp` and `condition_expression_manager.hpp` over whole histories.  Before the
conditions of a rule are evaluated, the variables of the environment of the call are copied into
the symbol table of every registered expression.  The copy goes forward only: a variable that
has been removed, or that now has a value of the other type, is not copied, and the symbol keeps
what an earlier call — with this or another environment — has left there.

* `SymbolTable.read_assignAll` — the last variable that applies to a symbol decides what it reads.
* `ConditionHistory.step` — creating and destroying expression conditions, setting and unsetting
  variables, and the calls of `is_fulfilled`.
* `ConditionHistory.UpToDate` — what a call must find in the tables and the environment, and
  `ConditionHistory.readsCurrent_iff`: exactly then every expression reads the current values.
-/

namespace Karabiner

/-! ### Copying variables into a symbol table -/

theorem imatch_comm (a b : String) : imatch a b = imatch b a := by
  simp only [imatch, eq_comm]

theorem imatch_self (a : String) : imatch a a = true := by
  simp [imatch]

/-- Names that match a common name match the same names. -/
theorem imatch_congr {a b : String} (h : imatch a b = true) (c : String) :
    imatch a c = imatch b c := by
  simp only [imatch, decide_eq_true_eq] at h
  simp only [imatch, h]

namespace SymbolTable

variable {α : Type}

/-- The names of the symbols do not change. -/
theorem map_fst_assign (symbols : List (String × α)) (name : String) (value : α) :
    (assign symbols name value).map Prod.fst = symbols.map Prod.fst := by
  simp only [assign, List.map_map]
  refine List.map_congr_left fun p _ => ?_
  simp only [Function.comp_apply]
  split <;> rfl

/-- An assignment changes the symbol of its name, if there is one. -/
theorem read_assign (symbols : List (String × α)) (name' : String) (value : α) (name : String) :
    read (assign symbols name' value) name =
      if imatch name name' then (read symbols name).map fun _ => value else read symbols name := by
  have hname : ((fun p : String × α => imatch p.1 name) ∘
      fun p => if imatch p.1 name' then (p.1, value) else p) = fun p => imatch p.1 name := by
    funext p
    simp only [Function.comp_apply]
    split <;> rfl
  simp only [read, assign, List.find?_map, hname, Option.map_map]
  cases hfind : symbols.find? fun p => imatch p.1 name with
  | none => simp
  | some p =>
      have hp := List.find?_some hfind
      simp only [Option.map_some, Function.comp_apply, imatch_congr hp name']
      split <;> rfl

/-- Every symbol of the table is read as something. -/
theorem exists_read {symbols : List (String × α)} {name : String}
    (h : name ∈ symbols.map Prod.fst) : ∃ x, read symbols name = some x := by
  obtain ⟨p, hp, rfl⟩ := List.mem_map.mp h
  cases hfind : symbols.find? fun q => imatch q.1 p.1 with
  | none => exact absurd (imatch_self p.1) (by simpa using List.find?_eq_none.mp hfind p hp)
  | some q => exact ⟨q.2, by simp [read, hfind]⟩

/-- Assign, in their order, all the variables that have a value under `f`. -/
def assignAll (f : (Σ _ : String, VariableValue) → Option α) (symbols : List (String × α))
    (vars : List (Σ _ : String, VariableValue)) : List (String × α) :=
  vars.foldl (fun symbols v =>
    match f v with
    | some x => assign symbols v.1 x
    | none => symbols) symbols

/-- The value the last variable that applies to `name` assigns. -/
def lastAssigned (f : (Σ _ : String, VariableValue) → Option α) (name : String)
    (vars : List (Σ _ : String, VariableValue)) : Option α :=
  vars.reverse.findSome? fun v => if imatch name v.1 then f v else none

theorem assignAll_concat (f : (Σ _ : String, VariableValue) → Option α)
    (symbols : List (String × α)) (vars : List (Σ _ : String, VariableValue))
    (v : Σ _ : String, VariableValue) :
    assignAll f symbols (vars ++ [v]) =
      match f v with
      | some x => assign (assignAll f symbols vars) v.1 x
      | none => assignAll f symbols vars := by
  simp [assignAll]

/-- Assignments create no symbols. -/
theorem map_fst_assignAll (f : (Σ _ : String, VariableValue) → Option α)
    (symbols : List (String × α)) (vars : List (Σ _ : String, VariableValue)) :
    (assignAll f symbols vars).map Prod.fst = symbols.map Prod.fst := by
  induction vars using List.reverseRecOn with
  | nil => rfl
  | append_singleton vars v ih =>
      rw [assignAll_concat]
      cases f v with
      | none => exact ih
      | some x => exact (map_fst_assign _ _ _).trans ih

/-- **The last variable that applies to a symbol decides what it reads**; without one the symbol
keeps its value. -/
theorem read_assignAll (f : (Σ _ : String, VariableValue) → Option α)
    (symbols : List (String × α)) (vars : List (Σ _ : String, VariableValue)) (name : String) :
    read (assignAll f symbols vars) name =
      match lastAssigned f name vars with
      | some x => (read symbols name).map fun _ => x
      | none => read symbols name := by
  induction vars using List.reverseRecOn with
  | nil => rfl
  | append_singleton vars v ih =>
      rw [assignAll_concat, lastAssigned, List.reverse_append, List.reverse_singleton,
        List.singleton_append, List.findSome?_cons, ← lastAssigned]
      cases hf : f v with
      | none => simpa using ih
      | some x =>
          simp only [read_assign, ih]
          cases imatch name v.1 with
          | false => simp
          | true => cases lastAssigned f name vars <;> simp [Function.comp_def]

/-- Once is as good as twice. -/
theorem read_assignAll_assignAll (f : (Σ _ : String, VariableValue) → Option α)
    (symbols : List (String × α)) (vars : List (Σ _ : String, VariableValue)) (name : String) :
    read (assignAll f (assignAll f symbols vars) vars) name =
      read (assignAll f symbols vars) name := by
  rw [read_assignAll, read_assignAll]
  cases lastAssigned f name vars <;> simp [Function.comp_def]

variable [Exprtk]

/-- The number a variable assigns to the symbols its name matches. -/
def numberOf (v : Σ _ : String, VariableValue) : Option Exprtk.Number :=
  if isStringVariableName v.1 then none
  else match v.2 with
    | .integer n => some (Exprtk.ofInt n)
    | .boolean b => some (Exprtk.ofInt (if b then 1 else 0))
    | .string _ => none

/-- The string a variable assigns to the symbols its name matches. -/
def stringOf (v : Σ _ : String, VariableValue) : Option String :=
  if isStringVariableName v.1 then
    match v.2 with
    | .string s => some s
    | .integer _ | .boolean _ => none
  else none

/-- Copying one variable assigns its number and its string, where it has one. -/
theorem applyVariable_eq (t : SymbolTable Exprtk.Number) (v : Σ _ : String, VariableValue) :
    t.applyVariable v.1 v.2 =
      ⟨assignAll numberOf t.numbers [v], assignAll stringOf t.strings [v]⟩ := by
  obtain ⟨name, value⟩ := v
  cases hname : isStringVariableName name <;> cases value <;>
    simp [applyVariable, setNumber, setString, assignAll, numberOf, stringOf, hname]

/-- The numbers go to the numbers and the strings to the strings. -/
theorem applyToExpressionVariable_eq (env : ManipulatorEnvironment)
    (t : SymbolTable Exprtk.Number) :
    env.applyToExpressionVariable t =
      ⟨assignAll numberOf t.numbers env.environmentVariables.entries,
        assignAll stringOf t.strings env.environmentVariables.entries⟩ := by
  rw [ManipulatorEnvironment.applyToExpressionVariable]
  generalize env.environmentVariables.entries = vars
  induction vars generalizing t with
  | nil => rfl
  | cons v vars ih =>
      rw [List.foldl_cons, ih, applyVariable_eq]
      rfl

end SymbolTable

/-! ### Applying an environment to all expressions -/

namespace SymbolTable

/-- What a name reads is what the symbol it stands for reads. -/
theorem read_eq_bind {α : Type} (symbols : List (String × α)) (name : String) :
    read symbols name =
      ((symbols.map Prod.fst).find? fun n => imatch n name).bind (read symbols) := by
  simp only [List.find?_map, Function.comp_def, read]
  cases hfind : symbols.find? fun p => imatch p.1 name with
  | none => rfl
  | some p =>
      have hp := List.find?_some hfind
      have hsame : (fun q : String × α => imatch q.1 p.1) = fun q => imatch q.1 name := by
        funext q
        rw [imatch_comm q.1 p.1, imatch_congr hp, imatch_comm]
      simp [read, hsame, hfind]

/-- The table has the symbols that the compiler creates for an expression. -/
def HasSymbols [Exprtk] (t : SymbolTable Exprtk.Number) (expressionString : String) : Prop :=
  t.numbers.map Prod.fst =
      (Exprtk.unknownSymbols expressionString).filter (fun n => !isStringVariableName n) ∧
    t.strings.map Prod.fst = (Exprtk.unknownSymbols expressionString).filter isStringVariableName

/-- The compiler creates the symbols of its expression. -/
theorem hasSymbols_compile [Exprtk] (expressionString : String) :
    (compile expressionString).HasSymbols expressionString := by
  simp [HasSymbols, compile, Function.comp_def]

theorem HasSymbols.applyToExpressionVariable [Exprtk] {t : SymbolTable Exprtk.Number}
    {expressionString : String} (h : t.HasSymbols expressionString)
    (env : ManipulatorEnvironment) :
    (env.applyToExpressionVariable t).HasSymbols expressionString := by
  rw [applyToExpressionVariable_eq]
  exact ⟨(map_fst_assignAll _ _ _).trans h.1, (map_fst_assignAll _ _ _).trans h.2⟩

/-- Two tables from which an expression reads the same. -/
def SameReads [Exprtk] (t t' : SymbolTable Exprtk.Number) : Prop :=
  read t.numbers = read t'.numbers ∧ read t.strings = read t'.strings

variable [Exprtk]

/-- Tables that read the same still do under the same environment. -/
theorem SameReads.applyToExpressionVariable {t t' : SymbolTable Exprtk.Number}
    (h : SameReads t t') (env : ManipulatorEnvironment) :
    SameReads (env.applyToExpressionVariable t) (env.applyToExpressionVariable t') := by
  simp only [applyToExpressionVariable_eq]
  constructor <;> funext name
  · simp only [read_assignAll, h.1]
  · simp only [read_assignAll, h.2]

theorem sameReads_applyToExpressionVariable_twice (env : ManipulatorEnvironment)
    (t : SymbolTable Exprtk.Number) :
    SameReads (env.applyToExpressionVariable (env.applyToExpressionVariable t))
      (env.applyToExpressionVariable t) := by
  simp only [applyToExpressionVariable_eq]
  exact ⟨funext fun name => read_assignAll_assignAll _ _ _ name,
    funext fun name => read_assignAll_assignAll _ _ _ name⟩

end SymbolTable

open SymbolTable

section World

variable [Exprtk]

/-- One round over the registered expressions: each of their tables has the variables of the
environment, and no other table changes. -/
theorem World.symbolTables_foldl (env : ManipulatorEnvironment) (es : List ExpressionWrapper)
    (w : World) (address : ℕ) :
    let t := (es.foldl (fun w e => w.updateTable e.address env.applyToExpressionVariable)
      w).symbolTables address
    (address ∈ es.map ExpressionWrapper.address →
      SameReads t (env.applyToExpressionVariable (w.symbolTables address))) ∧
    (address ∉ es.map ExpressionWrapper.address → t = w.symbolTables address) := by
  induction es generalizing w with
  | nil => exact ⟨fun h => absurd h (by simp), fun _ => rfl⟩
  | cons e es ih =>
      obtain ⟨hmem, hnot⟩ := ih (w.updateTable e.address env.applyToExpressionVariable)
      rw [List.foldl_cons]
      rcases eq_or_ne address e.address with rfl | hne
      · refine ⟨fun _ => ?_, fun h => absurd (List.mem_cons_self ..) h⟩
        simp only [World.updateTable, Function.update_self] at hmem hnot ⊢
        by_cases hrest : e.address ∈ es.map ExpressionWrapper.address
        · have htwice := sameReads_applyToExpressionVariable_twice env (w.symbolTables e.address)
          exact ⟨(hmem hrest).1.trans htwice.1, (hmem hrest).2.trans htwice.2⟩
        · rw [hnot hrest]
          exact ⟨rfl, rfl⟩
      · simp only [World.updateTable, Function.update_of_ne hne, List.map_cons, List.mem_cons,
          hne, false_or] at hmem hnot ⊢
        exact ⟨hmem, hnot⟩

/-- Each expression reads as if the environment were applied to its own table alone. -/
theorem World.sameReads_applyEnvironmentVariables (env : ManipulatorEnvironment) (w : World)
    {e : ExpressionWrapper} (he : e ∈ w.expressions) :
    SameReads ((w.applyEnvironmentVariables env).symbolTables e.address)
      (env.applyToExpressionVariable (w.symbolTables e.address)) :=
  (World.symbolTables_foldl env w.expressions w e.address).1 (List.mem_map_of_mem he)

/-- The tables are updated, and the expressions stay. -/
theorem World.expressions_foldl (env : ManipulatorEnvironment) (es : List ExpressionWrapper)
    (w : World) :
    (es.foldl (fun w e => w.updateTable e.address env.applyToExpressionVariable) w).expressions
      = w.expressions := by
  induction es generalizing w with
  | nil => rfl
  | cons e es ih => exact ih _

@[simp] theorem World.applyEnvironmentVariables_expressions (w : World)
    (env : ManipulatorEnvironment) :
    (w.applyEnvironmentVariables env).expressions = w.expressions :=
  World.expressions_foldl env w.expressions w

end World

/-! ### Histories -/

section Environment

variable [Exprtk]

/-- The value of a variable as a number: `0` unless it is set to a number or a boolean. -/
def ManipulatorEnvironment.number (env : ManipulatorEnvironment) (name : String) :
    Exprtk.Number :=
  match env.getVariable name with
  | .integer n => Exprtk.ofInt n
  | .boolean b => Exprtk.ofInt (if b then 1 else 0)
  | .string _ => Exprtk.ofInt 0

omit [Exprtk] in
/-- The value of a variable as a string: empty unless it is set to a string. -/
def ManipulatorEnvironment.string (env : ManipulatorEnvironment) (name : String) : String :=
  match env.getVariable name with
  | .string s => s
  | .integer _ | .boolean _ => ""

end Environment

variable [Exprtk] [SystemClock]

/-- The environments, by a number each, and the state of the process. -/
structure ConditionHistory where
  environments : ℕ → ManipulatorEnvironment
  world : World
  /-- The address of the next expression wrapper. -/
  nextAddress : ℕ

namespace ConditionHistory

/-- What happens in a history. -/
inductive Input
  /-- `condition_factory::make_condition` of an expression condition. -/
  | makeCondition (expressionString : String)
  /-- The last pointer to an expression goes away. -/
  | destroyCondition (address : ℕ)
  | setVariable (environment : ℕ) (name : String) (value : VariableValue)
  | unsetVariable (environment : ℕ) (name : String)
  | isFulfilled (environment : ℕ) (conditions : List Condition) (entry : Entry)

/-- No expression, and environments without variables. -/
def init : ConditionHistory where
  environments _ := {}
  world := .initial
  nextAddress := 0

/-- One step of a history. -/
def step (s : ConditionHistory) : Input → ConditionHistory
  | .makeCondition expressionString =>
    let e : ExpressionWrapper := ⟨s.nextAddress, expressionString⟩
    { s with world := (s.world.compile e).insertExpression e, nextAddress := s.nextAddress + 1 }
  | .destroyCondition address =>
    { s with
      world.expressions := s.world.expressions.filter fun e => e.address ≠ address }
  | .setVariable i name value =>
    { s with
      environments := Function.update s.environments i
        ((s.environments i).setVariable name value) }
  | .unsetVariable i name =>
    { s with
      environments := Function.update s.environments i ((s.environments i).unsetVariable name) }
  | .isFulfilled i conditions entry =>
    let (_, env, w) := Karabiner.isFulfilled conditions entry (s.environments i) s.world
    { s with environments := Function.update s.environments i env, world := w }

/-- The environment and the process in which a call of `is_fulfilled` evaluates its
conditions. -/
def called (s : ConditionHistory) (i : ℕ) : ManipulatorEnvironment × World :=
  let (env, w) := setVariableSystemNowMilliseconds (s.environments i) s.world
  (env, w.applyEnvironmentVariables env)

/-- Every variable of every expression reads the current value of the environment. -/
def ReadsCurrent (env : ManipulatorEnvironment) (w : World) : Prop :=
  ∀ e ∈ w.expressions, ∀ name ∈ Exprtk.unknownSymbols e.expressionString,
    if isStringVariableName name then
      read (w.symbolTables e.address).strings name = some (env.string name)
    else read (w.symbolTables e.address).numbers name = some (env.number name)

/-- In a call of `is_fulfilled`, every expression reads the current values. -/
def ReadsCurrentAt (s : ConditionHistory) : Input → Prop
  | .isFulfilled i _ _ => ReadsCurrent (s.called i).1 (s.called i).2
  | _ => True

/-- **What a call must find.**  For every variable of every expression: of the variables of the
environment whose names match it — without regard to case — and that have a value of its type,
the last has the value of the variable of exactly that name; and where there is none, no earlier
call has left a value other than the default in the symbol table. -/
def UpToDate (env : ManipulatorEnvironment) (w : World) : Prop :=
  ∀ e ∈ w.expressions, ∀ name ∈ Exprtk.unknownSymbols e.expressionString,
    if isStringVariableName name then
      match lastAssigned stringOf name env.environmentVariables.entries with
      | some x => x = env.string name
      | none => read (w.symbolTables e.address).strings name = some ""
    else
      match lastAssigned numberOf name env.environmentVariables.entries with
      | some x => x = env.number name
      | none => read (w.symbolTables e.address).numbers name = some (Exprtk.ofInt 0)

/-- A call of `is_fulfilled` finds the tables up to date. -/
def UpToDateAt (s : ConditionHistory) : Input → Prop
  | .isFulfilled i _ _ =>
    UpToDate (setVariableSystemNowMilliseconds (s.environments i) s.world).1 s.world
  | _ => True

/-! ### The invariant: tables have their symbols -/

omit [SystemClock] in
/-- Applying an environment to expressions keeps the symbols of every table. -/
theorem hasSymbols_foldl {expressionString : String} (env : ManipulatorEnvironment)
    (es : List ExpressionWrapper) {w : World} {address : ℕ}
    (h : (w.symbolTables address).HasSymbols expressionString) :
    ((es.foldl (fun w e => w.updateTable e.address env.applyToExpressionVariable)
      w).symbolTables address).HasSymbols expressionString := by
  induction es generalizing w with
  | nil => exact h
  | cons e es ih =>
      refine ih ?_
      simp only [World.updateTable]
      rcases eq_or_ne address e.address with rfl | hne
      · rw [Function.update_self]
        exact h.applyToExpressionVariable env
      · rw [Function.update_of_ne hne]
        exact h

/-- Every registered expression has a table of its own, with the symbols the compiler created. -/
def Registered (s : ConditionHistory) : Prop :=
  ∀ e ∈ s.world.expressions, e.address < s.nextAddress ∧
    (s.world.symbolTables e.address).HasSymbols e.expressionString

/-- A call keeps every expression registered. -/
theorem registered_step (s : ConditionHistory) (x : Input) (h : Registered s) :
    Registered (s.step x) := by
  intro e he
  cases x with
  | makeCondition expressionString =>
      simp only [step, World.insertExpression, List.mem_append, List.mem_singleton] at he ⊢
      simp only [World.compile, World.updateTable] at he ⊢
      rcases he with he | rfl
      · obtain ⟨hlt, hsymbols⟩ := h e he
        rw [Function.update_of_ne (by omega)]
        exact ⟨by omega, hsymbols⟩
      · rw [Function.update_self]
        exact ⟨Nat.lt_succ_self _, hasSymbols_compile expressionString⟩
  | destroyCondition address => exact h e (List.mem_of_mem_filter he)
  | setVariable i name value => exact h e he
  | unsetVariable i name => exact h e he
  | isFulfilled i conditions entry =>
      simp only [step, Karabiner.isFulfilled, setVariableSystemNowMilliseconds,
        World.applyEnvironmentVariables_expressions] at he ⊢
      obtain ⟨hlt, hsymbols⟩ := h e he
      exact ⟨hlt, hasSymbols_foldl _ _ hsymbols⟩

/-- Every expression in use is registered. -/
theorem registered_run (is : List Input) : Registered (Machine.run step init is) :=
  Machine.run_invariant registered_step (fun _ he => absurd he (List.not_mem_nil)) is

/-! ### When expressions read current values -/

omit [Exprtk] [SystemClock] in
/-- When no variable that applies to the name assigns anything, the variable itself does not. -/
theorem eq_none_of_lastAssigned_eq_none {f : (Σ _ : String, VariableValue) → Option α}
    {env : ManipulatorEnvironment} {name : String} {value : VariableValue}
    (h : lastAssigned f name env.environmentVariables.entries = none)
    (hlookup : env.environmentVariables.lookup name = some value) : f ⟨name, value⟩ = none := by
  rw [lastAssigned, List.findSome?_eq_none_iff] at h
  have hmem := AList.mem_lookup_iff.mp hlookup
  have hnone := h ⟨name, value⟩ (List.mem_reverse.mpr hmem)
  rwa [imatch_self, if_pos rfl] at hnone

omit [SystemClock] in
/-- A variable that is set to a number or a boolean is the value of some variable that applies. -/
theorem number_of_lastAssigned_eq_none {env : ManipulatorEnvironment} {name : String}
    (hname : isStringVariableName name = false)
    (h : lastAssigned numberOf name env.environmentVariables.entries = none) :
    env.number name = Exprtk.ofInt 0 := by
  rw [ManipulatorEnvironment.number, ManipulatorEnvironment.getVariable]
  cases hlookup : env.environmentVariables.lookup name with
  | none => rfl
  | some value =>
      have hnone := eq_none_of_lastAssigned_eq_none h hlookup
      cases value <;> simp_all [numberOf]

omit [Exprtk] [SystemClock] in
/-- A string that is never assigned reads as the empty one. -/
theorem string_of_lastAssigned_eq_none {env : ManipulatorEnvironment} {name : String}
    (hname : isStringVariableName name = true)
    (h : lastAssigned stringOf name env.environmentVariables.entries = none) :
    env.string name = "" := by
  rw [ManipulatorEnvironment.string, ManipulatorEnvironment.getVariable]
  cases hlookup : env.environmentVariables.lookup name with
  | none => rfl
  | some value =>
      have hnone := eq_none_of_lastAssigned_eq_none h hlookup
      cases value <;> simp_all [stringOf]

/-- **One call**: the expressions read the current values exactly when the call finds the tables
up to date. -/
theorem readsCurrentAt_iff {s : ConditionHistory} (h : Registered s) (x : Input) :
    ReadsCurrentAt s x ↔ UpToDateAt s x := by
  cases x with
  | makeCondition | destroyCondition | setVariable | unsetVariable => rfl
  | isFulfilled i conditions entry =>
      simp only [ReadsCurrentAt, UpToDateAt, ReadsCurrent, UpToDate, called,
        setVariableSystemNowMilliseconds, World.applyEnvironmentVariables_expressions]
      generalize (s.environments i).setVariable _ _ = env
      refine forall₂_congr fun e he => forall₂_congr fun name hmem => ?_
      obtain ⟨-, hsymbols⟩ := h e he
      have hreads := World.sameReads_applyEnvironmentVariables env
        { s.world with readings := s.world.readings + 1 } he
      simp only [SameReads, applyToExpressionVariable_eq] at hreads
      rw [hreads.1, hreads.2, read_assignAll, read_assignAll]
      split
      case isTrue hname =>
          obtain ⟨x, hx⟩ : ∃ x, read (s.world.symbolTables e.address).strings name = some x :=
            exists_read (by rw [hsymbols.2]; simp [hmem, hname])
          rw [hx]
          cases hlast : lastAssigned stringOf name env.environmentVariables.entries with
          | none => rw [string_of_lastAssigned_eq_none hname hlast]
          | some y => simp
      case isFalse hname =>
          rw [Bool.not_eq_true] at hname
          obtain ⟨x, hx⟩ : ∃ x, read (s.world.symbolTables e.address).numbers name = some x :=
            exists_read (by rw [hsymbols.1]; simp [hmem, hname])
          rw [hx]
          cases hlast : lastAssigned numberOf name env.environmentVariables.entries with
          | none => rw [number_of_lastAssigned_eq_none hname hlast]
          | some y => simp

/-! ### Two histories -/

/-- The same condition in two processes: an expression is the same when it was compiled from the
same string. -/
inductive SameCondition (w w' : World) : Condition → Condition → Prop
  | ofExpression (type : ConditionType) {e e' : ExpressionWrapper} (he : e ∈ w.expressions)
      (he' : e' ∈ w'.expressions) (h : e.expressionString = e'.expressionString) :
      SameCondition w w' (.expression type (some e)) (.expression type (some e'))
  | noExpression (type : ConditionType) :
      SameCondition w w' (.expression type none) (.expression type none)
  | ofVariable (type : ConditionType) (name : String) (value : VariableValue) :
      SameCondition w w' (.variable type name value) (.variable type name value)

omit [SystemClock] in
/-- Expressions that read the same current values have the same value. -/
theorem value_eq {env env' : ManipulatorEnvironment} {w w' : World}
    {e e' : ExpressionWrapper} (h : e.expressionString = e'.expressionString)
    (henv : ∀ name, env.getVariable name = env'.getVariable name)
    (hsymbols : (w.symbolTables e.address).HasSymbols e.expressionString)
    (hsymbols' : (w'.symbolTables e'.address).HasSymbols e'.expressionString)
    (hread : ReadsCurrent env w) (hread' : ReadsCurrent env' w') (he : e ∈ w.expressions)
    (he' : e' ∈ w'.expressions) : w.value e = w'.value e' := by
  have hnumbers : read (w.symbolTables e.address).numbers =
      read (w'.symbolTables e'.address).numbers := by
    funext name
    rw [read_eq_bind, read_eq_bind _ name, hsymbols.1, hsymbols'.1, ← h]
    refine Option.bind_congr fun key hkey => ?_
    obtain ⟨hmem, hname⟩ := List.mem_filter.mp (List.mem_of_find?_eq_some hkey)
    have hcurrent := hread e he key hmem
    have hcurrent' := hread' e' he' key (h ▸ hmem)
    rw [Bool.not_eq_true'] at hname
    simp only [hname, Bool.false_eq_true, if_false] at hcurrent hcurrent'
    rw [hcurrent, hcurrent', ManipulatorEnvironment.number, ManipulatorEnvironment.number, henv]
  have hstrings : read (w.symbolTables e.address).strings =
      read (w'.symbolTables e'.address).strings := by
    funext name
    rw [read_eq_bind, read_eq_bind _ name, hsymbols.2, hsymbols'.2, ← h]
    refine Option.bind_congr fun key hkey => ?_
    obtain ⟨hmem, hname⟩ := List.mem_filter.mp (List.mem_of_find?_eq_some hkey)
    have hcurrent := hread e he key hmem
    have hcurrent' := hread' e' he' key (h ▸ hmem)
    simp only [hname, if_true] at hcurrent hcurrent'
    rw [hcurrent, hcurrent', ManipulatorEnvironment.string, ManipulatorEnvironment.string, henv]
  simp only [World.value, hnumbers, hstrings, h]

/-- The result of a call of `is_fulfilled`. -/
def fulfilled (s : ConditionHistory) (i : ℕ) (conditions : List Condition) (entry : Entry) :
    Bool :=
  (Karabiner.isFulfilled conditions entry (s.environments i) s.world).1

/-- Two calls that see the same variables and the same clock, with up-to-date tables, evaluate
the same conditions alike. -/
theorem fulfilled_eq {s s' : ConditionHistory} (hs : Registered s) (hs' : Registered s')
    {i i' : ℕ}
    (hvariables : ∀ name, (s.environments i).getVariable name =
      (s'.environments i').getVariable name)
    (hclock : SystemClock.now s.world.readings = SystemClock.now s'.world.readings)
    {conditions conditions' : List Condition} {entry entry' : Entry}
    (h : UpToDateAt s (.isFulfilled i conditions entry))
    (h' : UpToDateAt s' (.isFulfilled i' conditions' entry'))
    (hconditions : List.Forall₂ (SameCondition s.world s'.world) conditions conditions') :
    s.fulfilled i conditions entry = s'.fulfilled i' conditions' entry' := by
  have hread := (readsCurrentAt_iff hs _).mpr h
  have hread' := (readsCurrentAt_iff hs' _).mpr h'
  have henv : ∀ name, (s.called i).1.getVariable name = (s'.called i').1.getVariable name := by
    intro name
    have hname := hvariables name
    simp only [called, setVariableSystemNowMilliseconds, ManipulatorEnvironment.setVariable,
      ManipulatorEnvironment.getVariable, hclock] at hname ⊢
    rcases eq_or_ne name "system.now.milliseconds" with rfl | hne
    · simp
    · rw [AList.lookup_insert_ne hne, AList.lookup_insert_ne hne, hname]
  have hsymbols : ∀ {s : ConditionHistory} {i : ℕ}, Registered s → ∀ e ∈ s.world.expressions,
      ((s.called i).2.symbolTables e.address).HasSymbols e.expressionString :=
    fun hs e he => hasSymbols_foldl _ _ (hs e he).2
  have hexpressions : ∀ {s : ConditionHistory} {i : ℕ} {e : ExpressionWrapper},
      e ∈ s.world.expressions → e ∈ (s.called i).2.expressions :=
    fun he => (World.applyEnvironmentVariables_expressions _ _).symm ▸ he
  have hone : ∀ {c c'}, SameCondition s.world s'.world c c' →
      c.isFulfilled entry (s.called i).1 (s.called i).2 =
        c'.isFulfilled entry' (s'.called i').1 (s'.called i').2 := by
    intro c c' hc
    cases hc with
    | ofExpression type he he' hstring =>
        have hvalue := value_eq hstring henv (hsymbols hs _ he) (hsymbols hs' _ he') hread hread'
          (hexpressions he) (hexpressions he')
        simp only [Condition.isFulfilled, hvalue]
    | noExpression type => rfl
    | ofVariable type name value => cases type <;> simp only [Condition.isFulfilled, henv]
  change conditions.all _ = conditions'.all _
  clear h h' hread hread'
  induction hconditions with
  | nil => rfl
  | cons hc _ ih => exact congrArg₂ and (hone hc) ih

/-- **Expressions read the current variables exactly while the tables are up to date.**  In a
history, every call of `is_fulfilled` lets every expression read the values that the environment
of the call has now, if and only if every call finds the tables up to date; and two histories of
which this holds give the same result for the same conditions, variables and clock. -/
theorem readsCurrent_iff_upToDate :
    (∀ is : List Input,
      (∀ before x after, is = before ++ x :: after →
        ReadsCurrentAt (Machine.run step init before) x) ↔
      Machine.Steps step UpToDateAt init is) ∧
    ∀ (is is' : List Input) (i i' : ℕ) (conditions conditions' : List Condition)
      (entry entry' : Entry),
      let s := Machine.run step init is
      let s' := Machine.run step init is'
      Machine.Steps step UpToDateAt init (is ++ [.isFulfilled i conditions entry]) →
      Machine.Steps step UpToDateAt init (is' ++ [.isFulfilled i' conditions' entry']) →
      (∀ name, (s.environments i).getVariable name = (s'.environments i').getVariable name) →
      SystemClock.now s.world.readings = SystemClock.now s'.world.readings →
      List.Forall₂ (SameCondition s.world s'.world) conditions conditions' →
      s.fulfilled i conditions entry = s'.fulfilled i' conditions' entry' := by
  constructor
  · intro is
    rw [Machine.steps_iff_forall]
    refine forall_congr' fun before => forall_congr' fun x => forall₂_congr fun after _ => ?_
    exact readsCurrentAt_iff (registered_run before) x
  · intro is is' i i' conditions conditions' entry entry' s s' h h' hvariables hclock hconditions
    exact fulfilled_eq (registered_run is) (registered_run is') hvariables hclock
      ((Machine.steps_append _ _ _ _ _).mp h).2.1 ((Machine.steps_append _ _ _ _ _).mp h').2.1
      hconditions

/-- The condition on `x` is created, `x` is set to 1 and the condition evaluated; then `x` is
unset, and the condition evaluated again. -/
def unsetAfterCall : List Input :=
  let entry : Entry := ⟨1, ⟨0, 0⟩, .none, .single, .none, .original, false, .valid⟩
  [.makeCondition "x", .setVariable 0 "x" (.integer 1), .isFulfilled 0 [] entry,
    .unsetVariable 0 "x", .isFulfilled 0 [] entry]

omit [Exprtk] [SystemClock] in
/-- The second call reads 1 for `x`, which the environment does not set. -/
theorem not_readsCurrent_unsetAfterCall :
    ∃ (_ : Exprtk) (_ : SystemClock), ¬ ∀ before x after,
      unsetAfterCall = before ++ x :: after →
        ReadsCurrentAt (Machine.run step init before) x := by
  refine ⟨.singleVariable, ⟨fun _ => 0⟩, fun h => ?_⟩
  have hcall := h (unsetAfterCall.take 4) _ [] rfl ⟨0, "x"⟩ (List.mem_singleton_self _) "x"
    (List.mem_singleton_self _)
  rw [if_neg (by decide)] at hcall
  change some (1 : ℤ) = some 0 at hcall
  exact absurd hcall (by decide)

end ConditionHistory

end Karabiner
