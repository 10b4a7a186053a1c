import Karabiner.EventQueue.Event.PayloadJson

/-!
# The JSON of `set_variable`

`share/types/manipulator_environment_variable_set_variable.hpp` and
`manipulator_environment_variable_value.hpp`.

An expression is written as its text and compiled again when it is read, which gives a wrapper at a
new address; `operator==` compares expressions by their texts.

* `SetVariable.fromJson_toJson` — the action is read back unless the text of an expression ends
  with a newline, or its initial value is not a number.
-/

namespace Karabiner

open JsonUtility

/-! ### Values of variables -/

namespace VariableValue

/-- `to_json`. -/
def toJson : VariableValue → Json
  | .integer n => .integer n
  | .boolean b => .boolean b
  | .string s => .string s

/-- `from_json`. -/
def fromJson [NlohmannJson] (json : Json) : JsonM VariableValue :=
  match json with
  | .boolean b => .ok (.boolean b)
  | .string s => .ok (.string s)
  | _ =>
    match json.toInt 64 with
    | some n => .ok (.integer n)
    | none => .error (.unmarshalError
        ("json must be number, boolean or string, but is " ++ quote (dumpForErrorMessage json)))

/-- An integer is of type `int64_t`. -/
def Fits : VariableValue → Prop
  | .integer n => Json.FitsInt 64 n
  | _ => True

theorem fromJson_toJson [NlohmannJson] {value : VariableValue} (hfits : value.Fits) :
    fromJson value.toJson = .ok value := by
  cases value with
  | integer n => simp only [toJson, fromJson, Json.toInt_integer hfits]
  | boolean b => rfl
  | string s => rfl

end VariableValue

/-! ### Expressions -/

/-- `exprtk_utility::compare`. -/
def compareExpressions : Option ExpressionWrapper → Option ExpressionWrapper → Bool
  | some a, some b => a.expressionString = b.expressionString
  | none, none => true
  | _, _ => false

section

variable [Exprtk] [NlohmannJson]

/-- `expression_wrapper::value` of a wrapper that has just been compiled. -/
def initialValue (expressionString : String) : Exprtk.Number :=
  let t := SymbolTable.compile expressionString
  Exprtk.value expressionString (SymbolTable.read t.numbers) (SymbolTable.read t.strings)

/-- `unmarshal_expression_string`, which compiles a wrapper at a new address. -/
def unmarshalExpressionString (address : ℕ) (key : String) (json : Json) :
    JsonM ExpressionWrapper := do
  let s ← unmarshalString key json
  if Exprtk.isNan (initialValue s) then
    .error (.unmarshalError
      (quote key ++ " error: invalid expression " ++ quote (NlohmannJson.dump json)))
  else return ⟨address, s⟩

omit [NlohmannJson] in
/-- The text does not end with a newline, and the initial value is a number. -/
def ExpressionWrapper.RoundTrips (e : ExpressionWrapper) : Prop :=
  e.expressionString.toList.getLast? ≠ some '\n' ∧
    Exprtk.isNan (initialValue e.expressionString) = false

/-- What becomes of an expression that is written and read. -/
def restore (address : ℕ) (key : String) (expression : Option ExpressionWrapper) :
    JsonM (Option ExpressionWrapper) :=
  match expression with
  | none => .ok none
  | some e => do
    let e ← unmarshalExpressionString address key (marshalString e.expressionString)
    return some e

/-- **An expression is restored** in these cases only. -/
theorem restore_compare (address : ℕ) (key : String) (expression : Option ExpressionWrapper) :
    (∃ restored, restore address key expression = .ok restored ∧
      compareExpressions restored expression = true) ↔ ∀ e ∈ expression, e.RoundTrips := by
  cases expression with
  | none => exact iff_of_true ⟨none, rfl, rfl⟩ (by simp)
  | some e =>
      obtain ⟨old, s⟩ := e
      have hread := unmarshalString_marshalString_eq key s
      by_cases hlast : s.toList.getLast? = some '\n'
      · -- The text that is read is shorter, if it is not refused.
        rw [if_pos hlast] at hread
        have hshort : String.ofList s.toList.dropLast ≠ s := fun h => by
          have hlength := congrArg (fun s : String => s.toList.length) h
          have hne : s.toList ≠ [] := fun hnil => by simp [hnil] at hlast
          have hpos := List.length_pos_iff.mpr hne
          simp only [String.toList_ofList, List.length_dropLast] at hlength
          omega
        refine iff_of_false ?_ fun h => (h _ rfl).1 hlast
        rintro ⟨restored, hrestore, hcompare⟩
        simp only [restore, unmarshalExpressionString, hread, JsonM.ok_bind] at hrestore
        split_ifs at hrestore
        · cases hrestore
        · obtain rfl := Except.ok.inj hrestore
          exact hshort (by simpa [compareExpressions] using hcompare)
      · rw [if_neg hlast] at hread
        by_cases hnan : Exprtk.isNan (initialValue s) = true
        · refine iff_of_false ?_ fun h => by simpa [hnan] using (h ⟨old, s⟩ rfl).2
          rintro ⟨restored, hrestore, -⟩
          simp only [restore, unmarshalExpressionString, hread, JsonM.ok_bind,
            if_pos hnan] at hrestore
          cases hrestore
        · refine iff_of_true ⟨some ⟨address, s⟩, ?_, ?_⟩ ?_
          · simp only [restore, unmarshalExpressionString, hread, JsonM.ok_bind, if_neg hnan]
            rfl
          · simp [compareExpressions]
          · intro e he
            obtain rfl := Option.mem_some_iff.mp he
            exact ⟨hlast, by simpa using hnan⟩

/-! ### The action -/

namespace SetVariable

omit [Exprtk] [NlohmannJson] in
/-- `operator==`. -/
def beq (v w : SetVariable) : Bool :=
  v.name = w.name && v.value = w.value && compareExpressions v.expression w.expression &&
    v.keyUpValue = w.keyUpValue && compareExpressions v.keyUpExpression w.keyUpExpression &&
    v.type = w.type

omit [Exprtk] [NlohmannJson] in
/-- The text of a `type`. -/
def typeToJson : SetVariableType → Json
  | .set => .string "set"
  | .unset => .string "unset"

omit [Exprtk] [NlohmannJson] in
/-- `to_json`. -/
def toJson (v : SetVariable) : Json :=
  Json.object []
    |> assignSome "name" (v.name.map .string)
    |> assignSome "value" (v.value.map VariableValue.toJson)
    |> assignSome "expression" (v.expression.map fun e => marshalString e.expressionString)
    |> assignSome "key_up_value" (v.keyUpValue.map VariableValue.toJson)
    |> assignSome "key_up_expression"
      (v.keyUpExpression.map fun e => marshalString e.expressionString)
    |> Json.assign "type" (typeToJson v.type)

omit [Exprtk] in
/-- The member `type`. -/
def readType (json : Json) (key : String) : JsonM SetVariableType := do
  let v ← requiresString json (quote key)
  if v = "set" then return .set
  else if v = "unset" then return .unset
  else .error (.unmarshalError ("unknown type: " ++ quote v))

/-- One member.  The wrappers of expressions are allocated by their keys. -/
def readMember (allocate : String → ℕ) (v : SetVariable) (key : String) (json : Json) :
    JsonM SetVariable :=
  if key = "name" then return { v with name := some (← requiresString json (quote key)) }
  else if key = "value" then return { v with value := some (← VariableValue.fromJson json) }
  else if key = "expression" then
    return { v with expression := some (← unmarshalExpressionString (allocate key) key json) }
  else if key = "key_up_value" then
    return { v with keyUpValue := some (← VariableValue.fromJson json) }
  else if key = "key_up_expression" then
    return { v with keyUpExpression := some (← unmarshalExpressionString (allocate key) key json) }
  else if key = "type" then return { v with type := ← readType json key }
  else .error (unknownKey key)

/-- `from_json`. -/
def fromJson (allocate : String → ℕ) (json : Json) : JsonM SetVariable :=
  readObject (readMember allocate) {} json

omit [Exprtk] [NlohmannJson] in
/-- The values are of the types of the source. -/
structure Fits (v : SetVariable) : Prop where
  value : ∀ value ∈ v.value, value.Fits
  keyUpValue : ∀ value ∈ v.keyUpValue, value.Fits

/-- The expressions are restored. -/
def RoundTrips (v : SetVariable) : Prop :=
  (∀ e ∈ v.expression, e.RoundTrips) ∧ ∀ e ∈ v.keyUpExpression, e.RoundTrips

omit [Exprtk] [NlohmannJson] in
/-- The members in the order of their keys. -/
theorem toJson_eq (v : SetVariable) :
    v.toJson = .object
      (optionalMember "expression" (fun e => marshalString e.expressionString) v.expression ++
        optionalMember "key_up_expression" (fun e => marshalString e.expressionString)
          v.keyUpExpression ++
        optionalMember "key_up_value" VariableValue.toJson v.keyUpValue ++
        optionalMember "name" .string v.name ++
        [("type", typeToJson v.type)] ++
        optionalMember "value" VariableValue.toJson v.value) := by
  obtain ⟨name, value, expression, keyUpValue, keyUpExpression, type⟩ := v
  cases name <;> cases value <;> cases expression <;> cases keyUpValue <;>
    cases keyUpExpression <;> rfl

/-- Everything but the expressions is read back as it was. -/
theorem fromJson_toJson_eq {v : SetVariable} (hfits : v.Fits) (allocate : String → ℕ) :
    fromJson allocate v.toJson = do
      let expression ← restore (allocate "expression") "expression" v.expression
      let keyUpExpression ←
        restore (allocate "key_up_expression") "key_up_expression" v.keyUpExpression
      return { v with expression := expression, keyUpExpression := keyUpExpression } := by
  obtain ⟨name, value, expression, keyUpValue, keyUpExpression, type⟩ := v
  obtain ⟨hvalue, hkeyUpValue⟩ := hfits
  have hexpression : readMembers (readMember allocate) {} (optionalMember "expression"
      (fun e => marshalString e.expressionString) expression) = (do
        let e ← restore (allocate "expression") "expression" expression
        return ⟨none, none, e, none, none, .set⟩) := by
    cases expression with
    | none => rfl
    | some e => simp [optionalMember, readMember, restore]
  have hkeyUpExpression (e) : readMembers (readMember allocate) ⟨none, none, e, none, none, .set⟩
      (optionalMember "key_up_expression" (fun e => marshalString e.expressionString)
        keyUpExpression) = (do
        let k ← restore (allocate "key_up_expression") "key_up_expression" keyUpExpression
        return ⟨none, none, e, none, k, .set⟩) := by
    cases keyUpExpression with
    | none => rfl
    | some e => simp [optionalMember, readMember, restore]
  have hkeyUpValue (e k) : readMembers (readMember allocate) ⟨none, none, e, none, k, .set⟩
      (optionalMember "key_up_value" VariableValue.toJson keyUpValue) =
        .ok ⟨none, none, e, keyUpValue, k, .set⟩ :=
    readMembers_optionalMember (fun (v : SetVariable) value => { v with keyUpValue := value })
      (fun value h => by simp [readMember, VariableValue.fromJson_toJson (hkeyUpValue value h)]) rfl
  have hname (e k) : readMembers (readMember allocate) ⟨none, none, e, keyUpValue, k, .set⟩
      (optionalMember "name" .string name) = .ok ⟨name, none, e, keyUpValue, k, .set⟩ :=
    readMembers_optionalMember (fun (v : SetVariable) value => { v with name := value })
      (fun _ _ => rfl) rfl
  have htype (e k) : readMember allocate ⟨name, none, e, keyUpValue, k, .set⟩ "type"
      (typeToJson type) = .ok ⟨name, none, e, keyUpValue, k, type⟩ := by
    cases type <;> rfl
  have hvalue (e k) : readMembers (readMember allocate) ⟨name, none, e, keyUpValue, k, type⟩
      (optionalMember "value" VariableValue.toJson value) =
        .ok ⟨name, value, e, keyUpValue, k, type⟩ :=
    readMembers_optionalMember (fun (v : SetVariable) value => { v with value := value })
      (fun value h => by simp [readMember, VariableValue.fromJson_toJson (hvalue value h)]) rfl
  simp [toJson_eq, fromJson, hexpression, hkeyUpExpression, hkeyUpValue, hname, htype, hvalue]

/-- **The action is read back**, up to the addresses of its expressions, if they are restored. -/
theorem fromJson_toJson {v : SetVariable} (hfits : v.Fits) (allocate : String → ℕ) :
    (∃ w, fromJson allocate v.toJson = .ok w ∧ beq w v = true) ↔ v.RoundTrips := by
  rw [fromJson_toJson_eq hfits, RoundTrips, ← restore_compare (allocate "expression") "expression",
    ← restore_compare (allocate "key_up_expression") "key_up_expression"]
  cases restore (allocate "expression") "expression" v.expression with
  | error error => simp [bind, Except.bind]
  | ok expression =>
      cases restore (allocate "key_up_expression") "key_up_expression" v.keyUpExpression with
      | error error => simp [bind, Except.bind]
      | ok keyUpExpression => simp [beq]

end SetVariable

end

end Karabiner
