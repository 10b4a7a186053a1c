import Karabiner.EventQueue.Event.PayloadJson
import Mathlib.Data.List.TakeWhile

/-!
# The JSON of software functions

`share/types/software_function.hpp` and `software_function_details`.

* `PositionValue.fromJson_toJson` — a position is read back unless it is a negative percentage,
  which the reader takes for points.
* `SoftwareFunction.fromJson_toJson` — what is read back: no function and an `open_application`
  without a field are written as `null`, and a delay is read as an `int`.
-/

namespace Karabiner

open JsonUtility

/-! ### Decimal numbers -/

/-- `std::isspace` in the C locale. -/
def isSpace (c : Char) : Bool :=
  c = ' ' || c = '\t' || c = '\n' || c = '\x0b' || c = '\x0c' || c = '\r'

/-- The value of the digits at the beginning of a text, if there are any and it is an `int`. -/
def leadingDigits (negative : Bool) (text : List Char) : Option ℤ :=
  let digits := text.takeWhile Char.isDigit
  let magnitude : ℤ := Nat.ofDigitChars 10 digits 0
  let value := if negative then -magnitude else magnitude
  if digits ≠ [] ∧ Json.FitsInt 32 value then some value else none

/-- `std::stoi`, `none` for an exception. -/
def stoi (text : List Char) : Option ℤ :=
  match text.dropWhile isSpace with
  | '-' :: rest => leadingDigits true rest
  | '+' :: rest => leadingDigits false rest
  | rest => leadingDigits false rest

/-- The first group of the pattern `(\d+)%` if it matches a text. -/
def matchPercent (text : List Char) : Option (List Char) :=
  let digits := text.dropLast
  if text.getLast? = some '%' ∧ digits ≠ [] ∧ digits.all Char.isDigit then some digits else none

theorem isDigit_of_mem_toDigits {n : ℕ} {c : Char} (hmem : c ∈ Nat.toDigits 10 n) :
    c.isDigit = true :=
  Nat.isDigit_of_mem_toDigits (by decide) (by decide) hmem

/-- No digit is a space. -/
theorem isSpace_of_isDigit {c : Char} (hdigit : c.isDigit = true) : isSpace c = false := by
  by_contra hspace
  simp only [isSpace, Bool.not_eq_false, Bool.or_eq_true, decide_eq_true_eq] at hspace
  obtain ((((rfl | rfl) | rfl) | rfl) | rfl) | rfl := hspace <;> revert hdigit <;> decide

/-- The digits of a number are read back. -/
theorem leadingDigits_toDigits {n : ℕ} (hfits : Json.FitsInt 32 n) :
    leadingDigits false (Nat.toDigits 10 n) = some ↑n := by
  have hdigits : (Nat.toDigits 10 n).takeWhile Char.isDigit = Nat.toDigits 10 n :=
    List.takeWhile_eq_self_iff.mpr fun c hmem => isDigit_of_mem_toDigits hmem
  have hvalue : Nat.ofDigitChars 10 (Nat.toDigits 10 n) 0 = n := Nat.ofDigitChars_ten_toDigits
  simp [leadingDigits, hdigits, hvalue, hfits, Nat.toDigits_ne_nil]

/-- A text that begins with a digit has no sign. -/
theorem stoi_cons {c : Char} (hdigit : c.isDigit = true) (cs : List Char) :
    stoi (c :: cs) = leadingDigits false (c :: cs) := by
  have hdrop : (c :: cs).dropWhile isSpace = c :: cs := by
    simp [isSpace_of_isDigit hdigit]
  unfold stoi
  rw [hdrop]
  split
  · rename_i h
    obtain rfl := (List.cons.inj h).1
    exact absurd hdigit (by decide)
  · rename_i h
    obtain rfl := (List.cons.inj h).1
    exact absurd hdigit (by decide)
  · rfl

theorem stoi_toDigits {n : ℕ} (hfits : Json.FitsInt 32 n) :
    stoi (Nat.toDigits 10 n) = some ↑n := by
  obtain ⟨c, cs, hcons⟩ := List.exists_cons_of_ne_nil (Nat.toDigits_ne_nil (n := n) (b := 10))
  have hdigit : c.isDigit = true := isDigit_of_mem_toDigits (n := n) (by simp [hcons])
  rw [hcons, stoi_cons hdigit, ← hcons, leadingDigits_toDigits hfits]

/-! ### Positions -/

namespace PositionValue

/-- `fmt::format("{0}%", value)`. -/
def percentText (value : ℤ) : String := toString value ++ "%"

/-- `to_json`. -/
def toJson : PositionValue → Json
  | .point value => .integer value
  | .percent value => .string (percentText value)

variable [NlohmannJson]

/-- `from_json`. -/
def fromJson (json : Json) : JsonM PositionValue :=
  match json with
  | .string s =>
    match matchPercent s.toList with
    | some digits =>
      match stoi digits with
      | some value => .ok (.percent value)
      | none => .error (.unmarshalError ("unsupported format: " ++ quote s))
    | none =>
      match stoi s.toList with
      | some value => .ok (.point value)
      | none => .error (.unmarshalError ("unsupported format: " ++ quote s))
  | _ =>
    match json.toInt 32 with
    | some value => .ok (.point value)
    | none => .error (.unmarshalError
        ("json must be number or string, but is " ++ quote (dumpForErrorMessage json)))

/-- The value is of type `int`. -/
def Fits : PositionValue → Prop
  | .point value => Json.FitsInt 32 value
  | .percent value => Json.FitsInt 32 value

/-- The position is not a negative percentage. -/
def RoundTrips : PositionValue → Prop
  | .point _ => True
  | .percent value => 0 ≤ value

omit [NlohmannJson] in
/-- The text of a percentage that is not negative. -/
theorem toList_percentText (n : ℕ) : (percentText n).toList = Nat.toDigits 10 n ++ ['%'] := by
  have htoString : toString (n : ℤ) = String.ofList (Nat.toDigits 10 n) :=
    Nat.toString_eq_ofList_toDigits
  simp [percentText, htoString]

omit [NlohmannJson] in
theorem matchPercent_percentText (n : ℕ) :
    matchPercent (percentText n).toList = some (Nat.toDigits 10 n) := by
  have hdigits : (Nat.toDigits 10 n).all Char.isDigit = true :=
    List.all_eq_true.mpr fun c hmem => isDigit_of_mem_toDigits hmem
  simp [matchPercent, toList_percentText, hdigits, Nat.toDigits_ne_nil]

omit [NlohmannJson] in
/-- A sign is no digit. -/
theorem matchPercent_neg (n : ℕ) : matchPercent (percentText (Int.negSucc n)).toList = none := by
  have htext : (percentText (Int.negSucc n)).toList = '-' :: Nat.toDigits 10 (n + 1) ++ ['%'] := by
    have htoString : toString (Int.negSucc n) = "-" ++ toString (n + 1) := rfl
    simp [percentText, htoString]
  have hsign : (percentText (Int.negSucc n)).toList.dropLast = '-' :: Nat.toDigits 10 (n + 1) := by
    rw [htext, List.dropLast_concat]
  have hnot : ('-' :: Nat.toDigits 10 (n + 1)).all Char.isDigit = false := by
    rw [List.all_cons]
    rfl
  simp [matchPercent, hsign, hnot]

/-- **A position is read back** unless it is a negative percentage. -/
theorem fromJson_toJson {p : PositionValue} (hfits : p.Fits) :
    fromJson p.toJson = .ok p ↔ p.RoundTrips := by
  cases p with
  | point value =>
      have hread : fromJson (.integer value) = .ok (.point value) := by
        simp only [fromJson, Json.toInt_integer hfits]
      exact iff_of_true hread trivial
  | percent value =>
      cases value with
      | ofNat n =>
          have hread : fromJson (.string (percentText n)) = .ok (.percent n) := by
            simp only [fromJson, matchPercent_percentText, stoi_toDigits hfits]
          exact iff_of_true hread (Int.natCast_nonneg n)
      | negSucc n =>
          refine iff_of_false (fun hread => ?_) (by simp [RoundTrips])
          simp only [toJson, fromJson, matchPercent_neg] at hread
          split at hread <;> cases hread

end PositionValue

/-! ### The details of a software function -/

section

variable [NlohmannJson]

/-- A number that is read with `get<int>` and kept as a `uint32_t`. -/
def getUInt32 (json : Json) : Option ℕ := (json.toInt 32).map fun n => (n % 2 ^ 32).toNat

omit [NlohmannJson] in
theorem getUInt32_integer {n : ℕ} (hfits : n < 2 ^ 32) : getUInt32 (.integer n) = some n := by
  have hcast : (2 : ℤ) ^ 32 = (2 ^ 32 : ℕ) := rfl
  have hwrap : (n : ℤ).bmod (2 ^ 32) % 2 ^ 32 = n := by
    rw [hcast, Int.bmod_emod, Int.emod_eq_of_lt (Int.natCast_nonneg n) (by exact_mod_cast hfits)]
  rw [getUInt32, Json.toInt, Option.map_some, hwrap, Int.toNat_natCast]

namespace CgEventDoubleClick

/-- `to_json`. -/
def toJson (button : ℕ) : Json := Json.null |> Json.assign "button" (.integer button)

/-- One member. -/
def readMember (_ : ℕ) (key : String) (json : Json) : JsonM ℕ :=
  if key = "button" then requiresNumber getUInt32 json (quote key) else .error (unknownKey key)

/-- `from_json`. -/
def fromJson (json : Json) : JsonM ℕ := readObject readMember 0 json

theorem fromJson_toJson {button : ℕ} (hfits : button < 2 ^ 32) :
    fromJson (toJson button) = .ok button := by
  have hread : requiresNumber getUInt32 (.integer button) (quote "button") = .ok button :=
    requiresNumber_eq_ok.mpr (getUInt32_integer hfits)
  have hwrite : toJson button = .object [("button", .integer button)] := rfl
  simp [hwrite, fromJson, readMember, hread]

end CgEventDoubleClick

namespace IokitPowerManagementSleepSystem

/-- `to_json`. -/
def toJson (delayMilliseconds : ℤ) : Json :=
  Json.null |> Json.assign "delay_milliseconds" (.integer delayMilliseconds)

/-- One member. -/
def readMember (_ : ℤ) (key : String) (json : Json) : JsonM ℤ :=
  if key = "delay_milliseconds" then requiresNumber (Json.toInt 32) json (quote key)
  else .error (unknownKey key)

/-- `from_json`. -/
def fromJson (json : Json) : JsonM ℤ := readObject readMember 500 json

/-- A delay is wrapped around to an `int`. -/
theorem fromJson_toJson_eq (delayMilliseconds : ℤ) :
    fromJson (toJson delayMilliseconds) = .ok (delayMilliseconds.bmod (2 ^ 32)) := rfl

end IokitPowerManagementSleepSystem

/-- `open_application`. -/
structure OpenApplication where
  bundleIdentifier : Option String := none
  filePath : Option String := none
  frontmostApplicationHistoryIndex : Option ℕ := none
deriving DecidableEq, Repr

namespace OpenApplication

/-- `to_json`. -/
def toJson (a : OpenApplication) : Json :=
  Json.null
    |> assignSome "bundle_identifier" (a.bundleIdentifier.map .string)
    |> assignSome "file_path" (a.filePath.map .string)
    |> assignSome "frontmost_application_history_index"
      (a.frontmostApplicationHistoryIndex.map fun index => .integer index)

/-- One member. -/
def readMember (a : OpenApplication) (key : String) (json : Json) : JsonM OpenApplication :=
  if key = "bundle_identifier" then
    return { a with bundleIdentifier := some (← requiresString json (quote key)) }
  else if key = "file_path" then
    return { a with filePath := some (← requiresString json (quote key)) }
  else if key = "frontmost_application_history_index" then
    return { a with
      frontmostApplicationHistoryIndex := some (← requiresNumber (Json.toNat 64) json (quote key)) }
  else .error (unknownKey key)

/-- `from_json`. -/
def fromJson (json : Json) : JsonM OpenApplication := readObject readMember {} json

/-- Without a field nothing is assigned, and `null` is refused. -/
theorem fromJson_toJson_empty : ∃ error, fromJson (toJson {}) = .error error := ⟨_, rfl⟩

/-- With a field, the object is read back up to the width of the index. -/
theorem fromJson_toJson_eq {a : OpenApplication} (hfield : a ≠ {}) :
    fromJson a.toJson = .ok { a with
      frontmostApplicationHistoryIndex :=
        a.frontmostApplicationHistoryIndex.map fun index => ((index : ℤ) % 2 ^ 64).toNat } := by
  obtain ⟨bundleIdentifier, filePath, index⟩ := a
  cases bundleIdentifier <;> cases filePath <;> cases index <;>
    first | rfl | exact absurd rfl hfield

/-- **An application is read back** if it has a field. -/
theorem fromJson_toJson {a : OpenApplication}
    (hfits : ∀ index ∈ a.frontmostApplicationHistoryIndex, index < 2 ^ 64) :
    fromJson a.toJson = .ok a ↔ a ≠ {} := by
  have hindex : (a.frontmostApplicationHistoryIndex.map fun index => ((index : ℤ) % 2 ^ 64).toNat) =
      a.frontmostApplicationHistoryIndex :=
    (Option.map_congr fun index hmem =>
      Option.some.inj (Json.toNat_integer (hfits index hmem))).trans Option.map_id'
  by_cases hfield : a = {}
  · subst hfield
    obtain ⟨error, herror⟩ := fromJson_toJson_empty
    refine iff_of_false (fun h => ?_) fun h => h rfl
    rw [herror] at h
    cases h
  · refine iff_of_true ?_ hfield
    rw [fromJson_toJson_eq hfield, hindex]

end OpenApplication

/-- `set_mouse_cursor_position`. -/
structure SetMouseCursorPosition where
  x : PositionValue := .point 0
  y : PositionValue := .point 0
  screen : Option ℕ := none
deriving DecidableEq, Repr

namespace SetMouseCursorPosition

/-- `to_json`. -/
def toJson (p : SetMouseCursorPosition) : Json :=
  Json.null
    |> Json.assign "x" p.x.toJson
    |> Json.assign "y" p.y.toJson
    |> assignSome "screen" (p.screen.map fun screen => .integer screen)

/-- One member. -/
def readMember (p : SetMouseCursorPosition) (key : String) (json : Json) :
    JsonM SetMouseCursorPosition :=
  if key = "x" then return { p with x := ← PositionValue.fromJson json }
  else if key = "y" then return { p with y := ← PositionValue.fromJson json }
  else if key = "screen" then
    return { p with screen := some (← requiresNumber getUInt32 json (quote key)) }
  else .error (unknownKey key)

/-- `from_json`. -/
def fromJson (json : Json) : JsonM SetMouseCursorPosition := readObject readMember {} json

/-- The integers are of the types `int` and `uint32_t`. -/
structure Fits (p : SetMouseCursorPosition) : Prop where
  x : p.x.Fits
  y : p.y.Fits
  screen : ∀ screen ∈ p.screen, screen < 2 ^ 32

/-- The positions are read before they are put together. -/
theorem fromJson_toJson_eq {p : SetMouseCursorPosition} (hfits : p.Fits) :
    fromJson p.toJson = do
      let x ← PositionValue.fromJson p.x.toJson
      let y ← PositionValue.fromJson p.y.toJson
      return ⟨x, y, p.screen⟩ := by
  obtain ⟨x, y, screen⟩ := p
  have hwrite : toJson ⟨x, y, screen⟩ =
      .object (optionalMember "screen" (fun screen : ℕ => .integer screen) screen ++
        [("x", x.toJson), ("y", y.toJson)]) := by
    cases screen <;> rfl
  have hscreen : readMembers readMember {}
      (optionalMember "screen" (fun screen : ℕ => .integer screen) screen) =
        .ok ⟨.point 0, .point 0, screen⟩ :=
    readMembers_optionalMember (fun (p : SetMouseCursorPosition) v => { p with screen := v })
      (fun n h => by
        have hread : requiresNumber getUInt32 (.integer n) (quote "screen") = .ok n :=
          requiresNumber_eq_ok.mpr (getUInt32_integer (hfits.screen n h))
        simp [readMember, hread]) rfl
  simp [hwrite, fromJson, hscreen, readMember]

/-- **A cursor position is read back** if its coordinates are. -/
theorem fromJson_toJson {p : SetMouseCursorPosition} (hfits : p.Fits) :
    fromJson p.toJson = .ok p ↔ p.x.RoundTrips ∧ p.y.RoundTrips := by
  rw [fromJson_toJson_eq hfits, ← PositionValue.fromJson_toJson hfits.x,
    ← PositionValue.fromJson_toJson hfits.y]
  obtain ⟨x, y, screen⟩ := p
  cases PositionValue.fromJson x.toJson <;> cases PositionValue.fromJson y.toJson <;>
    simp [bind, Except.bind]

end SetMouseCursorPosition

/-! ### Software functions -/

namespace SoftwareFunction

/-- `to_json`. -/
def toJson : SoftwareFunction → Json
  | .none => .null
  | .cgEventDoubleClick button =>
    .object [("cg_event_double_click", CgEventDoubleClick.toJson button)]
  | .iokitPowerManagementSleepSystem delay =>
    .object [("iokit_power_management_sleep_system", IokitPowerManagementSleepSystem.toJson delay)]
  | .openApplication bundleIdentifier filePath index =>
    .object [("open_application", OpenApplication.toJson ⟨bundleIdentifier, filePath, index⟩)]
  | .setMouseCursorPosition x y screen =>
    .object [("set_mouse_cursor_position", SetMouseCursorPosition.toJson ⟨x, y, screen⟩)]

/-- One member.  The last one counts. -/
def readMember (_ : SoftwareFunction) (key : String) (json : Json) : JsonM SoftwareFunction :=
  if key = "cg_event_double_click" then do
    let button ← atPath (quote key) (CgEventDoubleClick.fromJson json)
    return .cgEventDoubleClick button
  else if key = "iokit_power_management_sleep_system" then do
    let delay ← atPath (quote key) (IokitPowerManagementSleepSystem.fromJson json)
    return .iokitPowerManagementSleepSystem delay
  else if key = "open_application" then do
    let a ← atPath (quote key) (OpenApplication.fromJson json)
    return .openApplication a.bundleIdentifier a.filePath a.frontmostApplicationHistoryIndex
  else if key = "set_mouse_cursor_position" then do
    let p ← atPath (quote key) (SetMouseCursorPosition.fromJson json)
    return .setMouseCursorPosition p.x p.y p.screen
  else .error (unknownKey key)

/-- `from_json`. -/
def fromJson (json : Json) : JsonM SoftwareFunction := readObject readMember .none json

/-- The numbers are of the types that the source gives them. -/
def Fits : SoftwareFunction → Prop
  | .none => True
  | .cgEventDoubleClick button => button < 2 ^ 32
  | .iokitPowerManagementSleepSystem delay => Json.FitsInt 64 delay
  | .openApplication _ _ index => ∀ i ∈ index, i < 2 ^ 64
  | .setMouseCursorPosition x y screen => SetMouseCursorPosition.Fits ⟨x, y, screen⟩

/-- There is a function; a delay is an `int`, an application has a field, and no coordinate is a
negative percentage. -/
def RoundTrips : SoftwareFunction → Prop
  | .none => False
  | .cgEventDoubleClick _ => True
  | .iokitPowerManagementSleepSystem delay => Json.FitsInt 32 delay
  | .openApplication bundleIdentifier filePath index =>
    (⟨bundleIdentifier, filePath, index⟩ : OpenApplication) ≠ {}
  | .setMouseCursorPosition x y _ => x.RoundTrips ∧ y.RoundTrips

omit [NlohmannJson] in
/-- A reader whose errors get a path succeeds with what it read. -/
theorem atPath_bind_eq_ok {α β : Type} {path : String} {result : JsonM α} {f : α → β} {b : β} :
    (atPath path result >>= fun a => .ok (f a)) = .ok b ↔ ∃ a, result = .ok a ∧ f a = b := by
  cases result with
  | ok a => simp [atPath]
  | error error => cases error <;> simp [atPath, bind, Except.bind]

theorem fromJson_object (key : String) (json : Json) :
    fromJson (.object [(key, json)]) = readMember .none key json := by
  simp only [fromJson, readObject_object, readMembers_cons, readMembers_nil]
  cases readMember .none key json <;> rfl

/-- **A software function is read back** in these cases only. -/
theorem fromJson_toJson {f : SoftwareFunction} (hfits : f.Fits) :
    fromJson f.toJson = .ok f ↔ f.RoundTrips := by
  cases f with
  | none => exact iff_of_false (fun h => by cases h) id
  | cgEventDoubleClick button =>
      have hread : readMember .none "cg_event_double_click" (CgEventDoubleClick.toJson button) =
          .ok (.cgEventDoubleClick button) := by
        simp [readMember, CgEventDoubleClick.fromJson_toJson hfits, atPath]
      rw [toJson, fromJson_object, hread]
      exact iff_of_true rfl trivial
  | iokitPowerManagementSleepSystem delay =>
      have hread : fromJson (toJson (.iokitPowerManagementSleepSystem delay)) =
          .ok (.iokitPowerManagementSleepSystem (delay.bmod (2 ^ 32))) := rfl
      rw [hread, RoundTrips, ← Json.toInt_integer_iff (by decide), Json.toInt]
      simp
  | openApplication bundleIdentifier filePath index =>
      let a : OpenApplication := ⟨bundleIdentifier, filePath, index⟩
      have hread : readMember .none "open_application" a.toJson = (do
          let a ← atPath (quote "open_application") (OpenApplication.fromJson a.toJson)
          return .openApplication a.bundleIdentifier a.filePath
            a.frontmostApplicationHistoryIndex) := rfl
      have hback : fromJson (toJson (.openApplication bundleIdentifier filePath index)) =
          .ok (.openApplication bundleIdentifier filePath index) ↔
            OpenApplication.fromJson a.toJson = .ok a := by
        rw [toJson, fromJson_object, hread]
        refine atPath_bind_eq_ok.trans ⟨?_, fun h => ⟨a, h, rfl⟩⟩
        rintro ⟨⟨bundleIdentifier', filePath', index'⟩, h, heq⟩
        obtain ⟨rfl, rfl, rfl⟩ := SoftwareFunction.openApplication.inj heq
        exact h
      rw [hback, OpenApplication.fromJson_toJson (a := a) hfits]
      rfl
  | setMouseCursorPosition x y screen =>
      let p : SetMouseCursorPosition := ⟨x, y, screen⟩
      have hread : readMember .none "set_mouse_cursor_position" p.toJson = (do
          let p ← atPath (quote "set_mouse_cursor_position")
            (SetMouseCursorPosition.fromJson p.toJson)
          return .setMouseCursorPosition p.x p.y p.screen) := rfl
      have hback : fromJson (toJson (.setMouseCursorPosition x y screen)) =
          .ok (.setMouseCursorPosition x y screen) ↔
            SetMouseCursorPosition.fromJson p.toJson = .ok p := by
        rw [toJson, fromJson_object, hread]
        refine atPath_bind_eq_ok.trans ⟨?_, fun h => ⟨p, h, rfl⟩⟩
        rintro ⟨⟨x', y', screen'⟩, h, heq⟩
        obtain ⟨rfl, rfl, rfl⟩ := SoftwareFunction.setMouseCursorPosition.inj heq
        exact h
      rw [hback, SetMouseCursorPosition.fromJson_toJson (p := p) hfits]
      rfl

end SoftwareFunction

end

end Karabiner
