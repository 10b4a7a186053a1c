import Karabiner.EventQueue.Event
import Mathlib.Data.List.AList

/-!
# The manipulator environment and the conditions

`share/manipulator/manipulator_environment.hpp`, `share/exprtk_utility.hpp`,
`condition_expression_manager.hpp` and `condition_manager.hpp`.

An expression of a rule reads variables from a symbol table of its own.  The variables of an
environment are copied into the tables of all conditions before conditions are evaluated, so the
tables are state that outlives an environment.  The state that is shared by the whole process —
the tables, the list of the condition expression manager and the readings of the system clock —
is the `World`.
-/

namespace Karabiner

/-! ### Expressions -/

/-- `exprtk::symbol_table`: the variables and the string variables of one expression.  The constants
`pi`, `epsilon` and `inf` are not in it: the compiler replaces a constant by its value. -/
structure SymbolTable (Number : Type) where
  numbers : List (String × Number)
  strings : List (String × String)

/-- The vendored `exprtk`, which evaluates an expression from what its symbols read. -/
class Exprtk where
  /-- `double`. -/
  Number : Type
  /-- The conversion of an `int64_t` to a `double`. -/
  ofInt : ℤ → Number
  /-- `std::isnan`. -/
  isNan : Number → Bool
  /-- The conversion of a `double` to a `bool`. -/
  toBool : Number → Bool
  /-- The conversion of `expression_wrapper::value<int64_t>`. -/
  toInt64 : Number → ℤ
  /-- The names for which the compiler asks the unknown symbol resolver. -/
  unknownSymbols : String → List String
  /-- `expression::value`, from the values of the variables and of the string variables. -/
  value : String → (String → Option Number) → (String → Option String) → Number

/-- Expressions that are the name of one numeric variable, over the integers. -/
@[reducible] def Exprtk.singleVariable : Exprtk where
  Number := ℤ
  ofInt n := n
  isNan _ := false
  toBool n := n ≠ 0
  toInt64 n := n
  unknownSymbols expressionString := [expressionString]
  value expressionString numbers _ := (numbers expressionString).getD 0

/-- `std::chrono::system_clock`: its readings in milliseconds, in the order they are made. -/
class SystemClock where
  now : ℕ → ℤ

/-- `is_string_variable_name`. -/
def isStringVariableName (name : String) : Bool := "_string".toList.isSuffixOf name.toList

/-- How `exprtk` compares symbol names: without regard to case. -/
def imatch (a b : String) : Bool := a.toList.map Char.toLower = b.toList.map Char.toLower

namespace SymbolTable

variable {α : Type}

/-- Assign to the symbol of a name, if there is one. -/
def assign (symbols : List (String × α)) (name : String) (value : α) : List (String × α) :=
  symbols.map fun p => if imatch p.1 name then (p.1, value) else p

/-- What an expression reads for a name. -/
def read (symbols : List (String × α)) (name : String) : Option α :=
  (symbols.find? fun p => imatch p.1 name).map Prod.snd

variable [Exprtk]

/-- The table after compiling an expression: `zeroing_unknown_symbol_resolver` creates every
symbol the compiler asks for, as an empty string or as zero. -/
def compile (expressionString : String) : SymbolTable Exprtk.Number where
  numbers := ((Exprtk.unknownSymbols expressionString).filter fun n =>
    !isStringVariableName n).map fun n => (n, Exprtk.ofInt 0)
  strings := ((Exprtk.unknownSymbols expressionString).filter isStringVariableName).map
    fun n => (n, "")

/-- `expression_wrapper::set_variable` with a number. -/
def setNumber (t : SymbolTable Exprtk.Number) (name : String) (value : Exprtk.Number) :
    SymbolTable Exprtk.Number :=
  if isStringVariableName name then t else { t with numbers := assign t.numbers name value }

/-- `expression_wrapper::set_variable` with a string. -/
def setString (t : SymbolTable Exprtk.Number) (name : String) (value : String) :
    SymbolTable Exprtk.Number :=
  if isStringVariableName name then { t with strings := assign t.strings name value } else t

/-- `manipulator_environment_variable_value::apply_to_expression_variable`. -/
def applyVariable (t : SymbolTable Exprtk.Number) (name : String) :
    VariableValue → SymbolTable Exprtk.Number
  | .integer n => t.setNumber name (Exprtk.ofInt n)
  | .boolean b => t.setNumber name (Exprtk.ofInt (if b then 1 else 0))
  | .string s => t.setString name s

end SymbolTable

/-! ### The environment -/

/-- `manipulator_environment`.  The configuration is a shared pointer, which the conditions on
devices and keyboard types read. -/
structure ManipulatorEnvironment where
  deviceProperties : AList (fun _ : DeviceId => DevicePropertiesPtr) := ∅
  frontmostApplication : FrontmostApplication := {}
  inputSourceProperties : InputSourceProperties := {}
  /-- `variables_`. -/
  environmentVariables : AList (fun _ : String => VariableValue) := ∅
  coreConfiguration : ℕ := 0
  virtualHidDevicesState : VirtualHidDevicesState := {}

namespace ManipulatorEnvironment

/-- `get_variable`. -/
def getVariable (env : ManipulatorEnvironment) (name : String) : VariableValue :=
  (env.environmentVariables.lookup name).getD (.integer 0)

/-- `set_variable`. -/
def setVariable (env : ManipulatorEnvironment) (name : String) (value : VariableValue) :
    ManipulatorEnvironment :=
  { env with environmentVariables := env.environmentVariables.insert name value }

/-- `unset_variable`. -/
def unsetVariable (env : ManipulatorEnvironment) (name : String) : ManipulatorEnvironment :=
  { env with environmentVariables := env.environmentVariables.erase name }

/-- `apply_to_expression_variable`, in the iteration order of the map. -/
def applyToExpressionVariable [Exprtk] (env : ManipulatorEnvironment)
    (t : SymbolTable Exprtk.Number) : SymbolTable Exprtk.Number :=
  env.environmentVariables.entries.foldl (fun t v => t.applyVariable v.1 v.2) t

end ManipulatorEnvironment

/-! ### The process-wide state -/

variable [Exprtk] [SystemClock]

/-- The symbol tables of all expression wrappers by their address, the expressions registered
with the condition expression manager, and how often the system clock has been read. -/
structure World where
  symbolTables : ℕ → SymbolTable Exprtk.Number
  expressions : List ExpressionWrapper := []
  readings : ℕ := 0

namespace World

/-- The process at its start: no expression, and the clock has not been read. -/
def initial : World := ⟨fun _ => ⟨[], []⟩, [], 0⟩

/-- Change the table of one wrapper. -/
def updateTable (w : World) (address : ℕ)
    (f : SymbolTable Exprtk.Number → SymbolTable Exprtk.Number) : World :=
  { w with symbolTables := Function.update w.symbolTables address (f (w.symbolTables address)) }

/-- Compile a new wrapper. -/
def compile (w : World) (e : ExpressionWrapper) : World :=
  w.updateTable e.address fun _ => SymbolTable.compile e.expressionString

/-- `condition_expression_manager::insert`.  The manager's own variables are empty: nothing calls
its `set_variable`. -/
def insertExpression (w : World) (e : ExpressionWrapper) : World :=
  { w with expressions := w.expressions ++ [e] }

/-- `condition_expression_manager::apply_environment_variables`. -/
def applyEnvironmentVariables (w : World) (env : ManipulatorEnvironment) : World :=
  w.expressions.foldl (fun w e => w.updateTable e.address env.applyToExpressionVariable) w

/-- `expression_wrapper::value`. -/
def value (w : World) (e : ExpressionWrapper) : Exprtk.Number :=
  let t := w.symbolTables e.address
  Exprtk.value e.expressionString (SymbolTable.read t.numbers) (SymbolTable.read t.strings)

end World

/-- `set_variable_system_now_milliseconds`, which reads the clock once. -/
def setVariableSystemNowMilliseconds (env : ManipulatorEnvironment) (w : World) :
    ManipulatorEnvironment × World :=
  (env.setVariable "system.now.milliseconds" (.integer (SystemClock.now w.readings)),
    { w with readings := w.readings + 1 })

/-! ### Conditions -/

/-- `conditions::expression::type` and `conditions::variable::type`. -/
inductive ConditionType
  | if_
  | unless
deriving DecidableEq, Repr

/-- The conditions of a rule: `expression_if`, `variable_if` and their negations, and the
conditions that only look at the entry and the environment (devices, applications, input
sources, keyboard types, `event_changed_if`). -/
inductive Condition
  | expression (type : ConditionType) (e : Option ExpressionWrapper)
  | variable (type : ConditionType) (name : String) (value : VariableValue)
  | other (isFulfilled : Entry → ManipulatorEnvironment → Bool)

namespace Condition

/-- `is_fulfilled`. -/
def isFulfilled (c : Condition) (entry : Entry) (env : ManipulatorEnvironment) (w : World) :
    Bool :=
  match c with
  | .expression type (some e) =>
    let value := w.value e
    if Exprtk.isNan value then false
    else match type with
      | .if_ => Exprtk.toBool value
      | .unless => !Exprtk.toBool value
  | .expression _ none => false
  | .variable .if_ name value => env.getVariable name = value
  | .variable .unless name value => env.getVariable name ≠ value
  | .other isFulfilled => isFulfilled entry env

end Condition

/-- `condition_manager::is_fulfilled`.  Every condition is evaluated, also after one failed. -/
def isFulfilled (conditions : List Condition) (entry : Entry) (env : ManipulatorEnvironment)
    (w : World) : Bool × ManipulatorEnvironment × World :=
  let (env, w) := setVariableSystemNowMilliseconds env w
  let w := w.applyEnvironmentVariables env
  (conditions.all fun c => c.isFulfilled entry env w, env, w)

end Karabiner
