import Karabiner.CoreConfiguration.Device.Reload
import Karabiner.CoreConfiguration.Profile
import Karabiner.EventQueue.Event.SetVariableJson

/-!
# Texts that are saved and loaded

A text with several lines is saved as the array of its lines, and `std::getline` does not tell
whether the last of them ends with a newline.

* `strings_save_load` — **a text that is saved and loaded loses the newline that it ends with**, and
  nothing else: the texts themselves, the settings of a profile and of a device, and the
  expressions of a `set_variable`.
-/

namespace Karabiner.CoreConfiguration

open JsonUtility

/-- A text without the newline that it ends with. -/
def withoutLastNewline (text : String) : String :=
  if text.toList.getLast? = some '\n' then String.ofList text.toList.dropLast else text

theorem withoutLastNewline_eq_self_iff (text : String) :
    withoutLastNewline text = text ↔ text.toList.getLast? ≠ some '\n' :=
  SettingType.restore_string_eq_iff text

/-! ### Expressions -/

section

variable [Exprtk] [NlohmannJson]

/-- An expression is compiled from the text that is left, unless that is not a number. -/
theorem restore_eq_ok_iff {address : ℕ} {key : String}
    {expression restored : Option ExpressionWrapper} :
    restore address key expression = .ok restored ↔
      (∀ e ∈ expression,
        Exprtk.isNan (initialValue (withoutLastNewline e.expressionString)) = false) ∧
      restored = expression.map fun e => ⟨address, withoutLastNewline e.expressionString⟩ := by
  cases expression with
  | none => simpa [restore] using eq_comm
  | some e =>
      have hread : unmarshalString key (marshalString e.expressionString) =
          .ok (withoutLastNewline e.expressionString) :=
        unmarshalString_marshalString_eq key e.expressionString
      unfold restore unmarshalExpressionString
      simp only [hread, JsonM.ok_bind, Option.mem_some_iff, forall_eq', Option.map_some]
      cases hnan : Exprtk.isNan (initialValue (withoutLastNewline e.expressionString)) with
      | true => simp [bind, Except.bind]
      | false => simpa using eq_comm

/-- A `set_variable` that is read back has the same fields, with the texts that are left. -/
theorem fromJson_toJson_eq_ok {v w : SetVariable} (hfits : v.Fits) (allocate : String → ℕ) :
    SetVariable.fromJson allocate v.toJson = .ok w ↔
      (∀ e, e ∈ v.expression ∨ e ∈ v.keyUpExpression →
        Exprtk.isNan (initialValue (withoutLastNewline e.expressionString)) = false) ∧
      w = { v with
        expression := v.expression.map fun e =>
          ⟨allocate "expression", withoutLastNewline e.expressionString⟩
        keyUpExpression := v.keyUpExpression.map fun e =>
          ⟨allocate "key_up_expression", withoutLastNewline e.expressionString⟩ } := by
  rw [SetVariable.fromJson_toJson_eq hfits, JsonM.bind_eq_ok]
  constructor
  · rintro ⟨expression, hexpression, h⟩
    obtain ⟨keyUpExpression, hkeyUp, rfl⟩ := JsonM.bind_pure_eq_ok.mp h
    obtain ⟨hnumber, rfl⟩ := restore_eq_ok_iff.mp hexpression
    obtain ⟨hkeyUpNumber, rfl⟩ := restore_eq_ok_iff.mp hkeyUp
    exact ⟨fun e he => he.elim (hnumber e) (hkeyUpNumber e), rfl⟩
  · rintro ⟨hnumber, rfl⟩
    refine ⟨_, restore_eq_ok_iff.mpr ⟨fun e he => hnumber e (.inl he), rfl⟩, ?_⟩
    exact JsonM.bind_pure_eq_ok.mpr
      ⟨_, restore_eq_ok_iff.mpr ⟨fun e he => hnumber e (.inr he), rfl⟩, rfl⟩

end

/-! ### Saving and loading -/

section

variable [NlohmannJson] [NaturalSort]

/-- Any calls keep a profile valid. -/
theorem Profile.Valid.edits {errorHandling : ErrorHandling} {p : Profile}
    (h : p.Valid errorHandling) (edits : List Profile.Edit) :
    (edits.foldl Profile.Edit.apply p).Valid errorHandling := by
  induction edits generalizing p with
  | nil => exact h
  | cons edit edits ih => exact ih (h.edit edit)

/-- **A text that is saved and loaded loses the newline that it ends with**, and nothing else. -/
theorem strings_save_load [Exprtk] :
    (∀ key text, unmarshalString key (marshalString text) = .ok (withoutLastNewline text)) ∧
    (∀ text, withoutLastNewline text = text ↔ text.toList.getLast? ≠ some '\n') ∧
    (∀ errorHandling json profile (edits : List Profile.Edit),
      Profile.construct errorHandling json = .ok profile →
      let saved := edits.foldl Profile.Edit.apply profile
      ∃ loaded, Profile.construct errorHandling saved.toJson = .ok loaded ∧
        loaded.name = withoutLastNewline saved.name ∧
        (loaded.virtualHidKeyboard.values .keyboardTypeV2).value =
          withoutLastNewline (saved.virtualHidKeyboard.values .keyboardTypeV2).value) ∧
    (∀ errorHandling json device (edits : List Device.Edit),
      Device.construct errorHandling json = .ok device →
      let saved := edits.foldl Device.Edit.apply device
      ∃ loaded, Device.construct errorHandling (.object saved.membersWithIdentifiers) =
          .ok loaded ∧
        ∀ s, (loaded.values s).value = s.type.restore (saved.values s).value) ∧
    ∀ allocate (v w : SetVariable), v.Fits →
      (SetVariable.fromJson allocate v.toJson = .ok w ↔
        (∀ e, e ∈ v.expression ∨ e ∈ v.keyUpExpression →
          Exprtk.isNan (initialValue (withoutLastNewline e.expressionString)) = false) ∧
        w = { v with
          expression := v.expression.map fun e =>
            ⟨allocate "expression", withoutLastNewline e.expressionString⟩
          keyUpExpression := v.keyUpExpression.map fun e =>
            ⟨allocate "key_up_expression", withoutLastNewline e.expressionString⟩ }) := by
  refine ⟨unmarshalString_marshalString_eq, withoutLastNewline_eq_self_iff, ?_, ?_, ?_⟩
  · intro errorHandling json profile edits hprofile saved
    have hsaved : saved.Valid errorHandling := (Profile.Valid.of_construct hprofile).edits edits
    obtain ⟨loaded, hloaded, hreloads⟩ := Profile.construct_toJson hsaved
    exact ⟨loaded, hloaded, hreloads.values .name, hreloads.virtualHidKeyboard .keyboardTypeV2⟩
  · intro errorHandling json device edits hdevice saved
    obtain ⟨members, -, hconsistent⟩ := Device.Consistent.of_construct hdevice
    exact Device.construct_membersWithIdentifiers (hconsistent.edits edits) errorHandling
  · exact fun allocate v w hfits => fromJson_toJson_eq_ok hfits allocate

end

/-- The last newline of a text with several lines is lost. -/
theorem unmarshalString_marshalString_newline :
    let _ := NlohmannJson.ofTable []
    marshalString "hello\n\nworld\n" = .array [.string "hello", .string "", .string "world"] ∧
      ∃ text, unmarshalString "key" (marshalString "hello\n\nworld\n") = .ok text ∧
        text = "hello\n\nworld" ∧ text ≠ "hello\n\nworld\n" := by
  intro _
  exact ⟨rfl, _, rfl, by decide, by decide⟩

end Karabiner.CoreConfiguration
