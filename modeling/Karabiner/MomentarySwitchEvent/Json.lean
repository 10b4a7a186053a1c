import Karabiner.JsonUtility
import Karabiner.MomentarySwitchEvent
import Mathlib.Data.List.Nodup
import Mathlib.Data.Nat.Digits.Defs

/-!
# Momentary switch events in JSON

`to_json` and `from_json` of `share/types/momentary_switch_event.hpp`: a switch is written under the
key of its usage page with the name of its usage.  A `key_code` is read through a second table,
whose names stand for switches of other pages.

* `fromJson_toJson` — **a named switch is read back** unless it is the `mute` key of the keyboard
  page, whose name the second table gives to the consumer page, or `vk_none`, which is not written.
-/

namespace Karabiner

namespace MomentarySwitchEvent

/-! ### Names -/

/-- `key_code::name_value_pairs`. -/
def keyCodeNameValuePairs : List (String × ℤ) := [
  ("left_option", 0xe2), ("left_command", 0xe3), ("right_option", 0xe6), ("right_command", 0xe7),
  ("japanese_eisuu", 0x91), ("japanese_kana", 0x90), ("japanese_pc_nfer", 0x8b),
  ("japanese_pc_xfer", 0x8a), ("japanese_pc_katakana", 0x88), ("vk_none", 0x00), ("a", 0x04),
  ("b", 0x05), ("c", 0x06), ("d", 0x07), ("e", 0x08), ("f", 0x09), ("g", 0x0a), ("h", 0x0b),
  ("i", 0x0c), ("j", 0x0d), ("k", 0x0e), ("l", 0x0f), ("m", 0x10), ("n", 0x11), ("o", 0x12),
  ("p", 0x13), ("q", 0x14), ("r", 0x15), ("s", 0x16), ("t", 0x17), ("u", 0x18), ("v", 0x19),
  ("w", 0x1a), ("x", 0x1b), ("y", 0x1c), ("z", 0x1d), ("1", 0x1e), ("2", 0x1f), ("3", 0x20),
  ("4", 0x21), ("5", 0x22), ("6", 0x23), ("7", 0x24), ("8", 0x25), ("9", 0x26), ("0", 0x27),
  ("return_or_enter", 0x28), ("escape", 0x29), ("delete_or_backspace", 0x2a), ("tab", 0x2b),
  ("spacebar", 0x2c), ("hyphen", 0x2d), ("equal_sign", 0x2e), ("open_bracket", 0x2f),
  ("close_bracket", 0x30), ("backslash", 0x31), ("non_us_pound", 0x32), ("semicolon", 0x33),
  ("quote", 0x34), ("grave_accent_and_tilde", 0x35), ("comma", 0x36), ("period", 0x37),
  ("slash", 0x38), ("caps_lock", 0x39), ("f1", 0x3a), ("f2", 0x3b), ("f3", 0x3c), ("f4", 0x3d),
  ("f5", 0x3e), ("f6", 0x3f), ("f7", 0x40), ("f8", 0x41), ("f9", 0x42), ("f10", 0x43),
  ("f11", 0x44), ("f12", 0x45), ("print_screen", 0x46), ("scroll_lock", 0x47), ("pause", 0x48),
  ("insert", 0x49), ("home", 0x4a), ("page_up", 0x4b), ("delete_forward", 0x4c), ("end", 0x4d),
  ("page_down", 0x4e), ("right_arrow", 0x4f), ("left_arrow", 0x50), ("down_arrow", 0x51),
  ("up_arrow", 0x52), ("keypad_num_lock", 0x53), ("keypad_slash", 0x54), ("keypad_asterisk", 0x55),
  ("keypad_hyphen", 0x56), ("keypad_plus", 0x57), ("keypad_enter", 0x58), ("keypad_1", 0x59),
  ("keypad_2", 0x5a), ("keypad_3", 0x5b), ("keypad_4", 0x5c), ("keypad_5", 0x5d),
  ("keypad_6", 0x5e), ("keypad_7", 0x5f), ("keypad_8", 0x60), ("keypad_9", 0x61),
  ("keypad_0", 0x62), ("keypad_period", 0x63), ("non_us_backslash", 0x64), ("application", 0x65),
  ("power", 0x66), ("keypad_equal_sign", 0x67), ("f13", 0x68), ("f14", 0x69), ("f15", 0x6a),
  ("f16", 0x6b), ("f17", 0x6c), ("f18", 0x6d), ("f19", 0x6e), ("f20", 0x6f), ("f21", 0x70),
  ("f22", 0x71), ("f23", 0x72), ("f24", 0x73), ("execute", 0x74), ("help", 0x75), ("menu", 0x76),
  ("select", 0x77), ("stop", 0x78), ("again", 0x79), ("undo", 0x7a), ("cut", 0x7b), ("copy", 0x7c),
  ("paste", 0x7d), ("find", 0x7e), ("mute", 0x7f), ("volume_down", 0x81), ("volume_up", 0x80),
  ("locking_caps_lock", 0x82), ("locking_num_lock", 0x83), ("locking_scroll_lock", 0x84),
  ("keypad_comma", 0x85), ("keypad_equal_sign_as400", 0x86), ("international1", 0x87),
  ("international2", 0x88), ("international3", 0x89), ("international4", 0x8a),
  ("international5", 0x8b), ("international6", 0x8c), ("international7", 0x8d),
  ("international8", 0x8e), ("international9", 0x8f), ("lang1", 0x90), ("lang2", 0x91),
  ("lang3", 0x92), ("lang4", 0x93), ("lang5", 0x94), ("lang6", 0x95), ("lang7", 0x96),
  ("lang8", 0x97), ("lang9", 0x98), ("alternate_erase", 0x99), ("sys_req_or_attention", 0x9a),
  ("cancel", 0x9b), ("clear", 0x9c), ("prior", 0x9d), ("return", 0x9e), ("separator", 0x9f),
  ("out", 0xa0), ("oper", 0xa1), ("clear_or_again", 0xa2), ("cr_sel_or_props", 0xa3),
  ("ex_sel", 0xa4), ("left_control", 0xe0), ("left_shift", 0xe1), ("left_alt", 0xe2),
  ("left_gui", 0xe3), ("right_control", 0xe4), ("right_shift", 0xe5), ("right_alt", 0xe6),
  ("right_gui", 0xe7)]

/-- `key_code::other_usage_page_pairs`. -/
def otherUsagePagePairs : List (String × UsagePair) := [
  ("mute", ⟨UsagePage.consumer, 0x00e2⟩), ("volume_decrement", ⟨UsagePage.consumer, 0x00ea⟩),
  ("volume_increment", ⟨UsagePage.consumer, 0x00e9⟩),
  ("display_brightness_decrement", ⟨UsagePage.consumer, 0x0070⟩),
  ("display_brightness_increment", ⟨UsagePage.consumer, 0x006f⟩),
  ("eject", ⟨UsagePage.consumer, 0x00b8⟩), ("fastforward", ⟨UsagePage.consumer, 0x00b3⟩),
  ("play_or_pause", ⟨UsagePage.consumer, 0x00cd⟩), ("rewind", ⟨UsagePage.consumer, 0x00b4⟩),
  ("vk_consumer_brightness_down", ⟨UsagePage.consumer, 0x0070⟩),
  ("vk_consumer_brightness_up", ⟨UsagePage.consumer, 0x006f⟩),
  ("vk_consumer_next", ⟨UsagePage.consumer, 0x00b3⟩),
  ("vk_consumer_play", ⟨UsagePage.consumer, 0x00cd⟩),
  ("vk_consumer_previous", ⟨UsagePage.consumer, 0x00b4⟩),
  ("apple_display_brightness_decrement", ⟨UsagePage.appleVendorKeyboard, 0x0021⟩),
  ("apple_display_brightness_increment", ⟨UsagePage.appleVendorKeyboard, 0x0020⟩),
  ("dashboard", ⟨UsagePage.appleVendorKeyboard, 0x0002⟩),
  ("launchpad", ⟨UsagePage.appleVendorKeyboard, 0x0004⟩),
  ("mission_control", ⟨UsagePage.appleVendorKeyboard, 0x0010⟩),
  ("vk_dashboard", ⟨UsagePage.appleVendorKeyboard, 0x0002⟩),
  ("vk_launchpad", ⟨UsagePage.appleVendorKeyboard, 0x0004⟩),
  ("vk_mission_control", ⟨UsagePage.appleVendorKeyboard, 0x0010⟩),
  ("apple_top_case_display_brightness_decrement", ⟨UsagePage.appleVendorTopCase, 0x0005⟩),
  ("apple_top_case_display_brightness_increment", ⟨UsagePage.appleVendorTopCase, 0x0004⟩),
  ("fn", ⟨UsagePage.appleVendorTopCase, 0x0003⟩),
  ("illumination_decrement", ⟨UsagePage.appleVendorTopCase, 0x0009⟩),
  ("illumination_increment", ⟨UsagePage.appleVendorTopCase, 0x0008⟩),
  ("vk_consumer_illumination_down", ⟨UsagePage.appleVendorTopCase, 0x0009⟩),
  ("vk_consumer_illumination_up", ⟨UsagePage.appleVendorTopCase, 0x0008⟩)]

/-- `pointing_button::name_value_pairs`: `button1` to `button255`. -/
def pointingButtonNameValuePairs : List (String × ℤ) :=
  (List.range 255).map fun i : ℕ => ("button" ++ toString (i + 1), ((i + 1 : ℕ) : ℤ))

/-- `impl::make_name`. -/
def makeName (nameValuePairs : List (String × ℤ)) (usage : ℤ) : String :=
  match nameValuePairs.find? fun pair => pair.2 = usage with
  | some pair => pair.1
  | none => "unsupported"

/-- `impl::find_usage`. -/
def findUsage (nameValuePairs : List (String × ℤ)) (name : String) : Option ℤ :=
  (nameValuePairs.find? fun pair => pair.1 = name).map Prod.snd

/-- A listed usage is given one of the names of the table. -/
theorem makeName_mem {nameValuePairs : List (String × ℤ)} {usage : ℤ}
    (hlisted : listed nameValuePairs usage = true) :
    (makeName nameValuePairs usage, usage) ∈ nameValuePairs := by
  obtain ⟨pair, hmem, husage⟩ := List.any_eq_true.mp hlisted
  unfold makeName
  cases hfind : nameValuePairs.find? fun pair => pair.2 = usage with
  | none => exact absurd husage (List.find?_eq_none.mp hfind pair hmem)
  | some named =>
      have hnamed : named.2 = usage := by simpa using List.find?_some hfind
      rw [← hnamed]
      exact List.mem_of_find?_eq_some hfind

/-- A listed usage is found by the name it is given. -/
theorem findUsage_makeName {nameValuePairs : List (String × ℤ)}
    (nodup : (nameValuePairs.map Prod.fst).Nodup) {usage : ℤ}
    (hlisted : listed nameValuePairs usage = true) :
    findUsage nameValuePairs (makeName nameValuePairs usage) = some usage := by
  have hmem := makeName_mem hlisted
  generalize makeName nameValuePairs usage = name at hmem
  unfold findUsage
  cases hback : nameValuePairs.find? fun pair => pair.1 = name with
  | none => exact absurd (by simp) (List.find?_eq_none.mp hback _ hmem)
  | some found =>
      have hfound : found.1 = name := by simpa using List.find?_some hback
      have heq : found = (name, usage) :=
        List.inj_on_of_nodup_map nodup (List.mem_of_find?_eq_some hback) hmem hfound
      rw [heq, Option.map_some]

/-- The names of a usage page. -/
def nameValuePairs (usagePage : ℤ) : List (String × ℤ) :=
  if usagePage = UsagePage.keyboardOrKeypad then keyCodeNameValuePairs
  else if usagePage = UsagePage.consumer then consumerKeyCodeNameValuePairs
  else if usagePage = UsagePage.appleVendorKeyboard then appleVendorKeyboardKeyCodeNameValuePairs
  else if usagePage = UsagePage.appleVendorTopCase then appleVendorTopCaseKeyCodeNameValuePairs
  else if usagePage = UsagePage.button then pointingButtonNameValuePairs
  else if usagePage = UsagePage.genericDesktop then genericDesktopNameValuePairs
  else []

/-- The usage of the switch has a name in the table of its page. -/
def HasName (e : MomentarySwitchEvent) : Prop :=
  listed (nameValuePairs e.usagePair.usagePage) e.usagePair.usage = true

instance (e : MomentarySwitchEvent) : Decidable e.HasName := inferInstanceAs (Decidable (_ = true))

theorem nodup_pointingButton : (pointingButtonNameValuePairs.map Prod.fst).Nodup := by
  rw [pointingButtonNameValuePairs, List.map_map]
  refine List.Nodup.map (fun i j h => ?_) List.nodup_range
  have hdigits : toString (i + 1) = toString (j + 1) := (String.append_right_inj "button").mp h
  rw [Nat.toString_eq_ofList_toDigits, Nat.toString_eq_ofList_toDigits] at hdigits
  have hvalue := congrArg (fun ds => Nat.ofDigitChars 10 ds 0) (String.ofList_injective hdigits)
  simpa using hvalue

set_option maxRecDepth 10000 in
theorem nodup_keyCode : (keyCodeNameValuePairs.map Prod.fst).Nodup := by decide +kernel

theorem nodup_consumerKeyCode : (consumerKeyCodeNameValuePairs.map Prod.fst).Nodup := by
  decide +kernel

/-- No page gives one name to two usages. -/
theorem nodup_nameValuePairs (usagePage : ℤ) :
    ((nameValuePairs usagePage).map Prod.fst).Nodup := by
  unfold nameValuePairs
  split_ifs
  · exact nodup_keyCode
  · exact nodup_consumerKeyCode
  · decide
  · decide
  · exact nodup_pointingButton
  · decide
  · exact List.nodup_nil

/-! ### Reading and writing -/

/-- `to_json`. -/
def toJson (e : MomentarySwitchEvent) : Json :=
  let usagePage := e.usagePair.usagePage
  let usage := e.usagePair.usage
  if usagePage = UsagePage.keyboardOrKeypad ∧ Usage.KeyboardOrKeypad.keyboardA ≤ usage ∧
      usage < Usage.KeyboardOrKeypad.reserved then
    .object [("key_code", .string (makeName keyCodeNameValuePairs usage))]
  else if usagePage = UsagePage.consumer ∧ listed consumerKeyCodeNameValuePairs usage then
    .object [("consumer_key_code", .string (makeName consumerKeyCodeNameValuePairs usage))]
  else if usagePage = UsagePage.appleVendorKeyboard ∧
      listed appleVendorKeyboardKeyCodeNameValuePairs usage then
    .object [("apple_vendor_keyboard_key_code",
      .string (makeName appleVendorKeyboardKeyCodeNameValuePairs usage))]
  else if usagePage = UsagePage.appleVendorTopCase ∧
      listed appleVendorTopCaseKeyCodeNameValuePairs usage then
    .object [("apple_vendor_top_case_key_code",
      .string (makeName appleVendorTopCaseKeyCodeNameValuePairs usage))]
  else if usagePage = UsagePage.button then
    .object [("pointing_button", .string (makeName pointingButtonNameValuePairs usage))]
  else if usagePage = UsagePage.genericDesktop ∧ listed genericDesktopNameValuePairs usage then
    .object [("generic_desktop", .string (makeName genericDesktopNameValuePairs usage))]
  else .string "unsupported"

section

open JsonUtility

variable [NlohmannJson]

/-- `impl::make_usage_pair`. -/
def makeUsagePair (nameValuePairs : List (String × ℤ)) (usagePage : ℤ) (key : String)
    (json : Json) : JsonM UsagePair :=
  match json with
  | .string name =>
    match findUsage nameValuePairs name with
    | some usage => .ok ⟨usagePage, usage⟩
    | none =>
      .error (.unmarshalError ("unknown " ++ key ++ ": " ++ quote (dumpForErrorMessage json)))
  | _ =>
    match json.toInt 32 with
    | some usage => .ok ⟨usagePage, usage⟩
    | none => .error (mustBe (quote key) "string or number" json)

/-- `key_code::make_usage_pair`. -/
def keyCodeMakeUsagePair (key : String) (json : Json) : JsonM UsagePair :=
  match json with
  | .string name =>
    match otherUsagePagePairs.find? fun pair => pair.1 = name with
    | some pair => .ok pair.2
    | none => makeUsagePair keyCodeNameValuePairs UsagePage.keyboardOrKeypad key json
  | _ => makeUsagePair keyCodeNameValuePairs UsagePage.keyboardOrKeypad key json

/-- The switch that one member of an object describes. -/
def fromMember (key : String) (json : Json) : JsonM UsagePair :=
  if key = "key_code" then keyCodeMakeUsagePair key json
  else if key = "consumer_key_code" then
    makeUsagePair consumerKeyCodeNameValuePairs UsagePage.consumer key json
  else if key = "apple_vendor_keyboard_key_code" then
    makeUsagePair appleVendorKeyboardKeyCodeNameValuePairs UsagePage.appleVendorKeyboard key json
  else if key = "apple_vendor_top_case_key_code" then
    makeUsagePair appleVendorTopCaseKeyCodeNameValuePairs UsagePage.appleVendorTopCase key json
  else if key = "pointing_button" then
    makeUsagePair pointingButtonNameValuePairs UsagePage.button key json
  else if key = "generic_desktop" then
    makeUsagePair genericDesktopNameValuePairs UsagePage.genericDesktop key json
  else .error (unknownKey key)

/-- `from_json`.  Of several members the last one counts. -/
def fromJson (json : Json) : JsonM MomentarySwitchEvent :=
  readObject (fun _ key value => return ⟨← fromMember key value⟩) undefined json

/-! ### Round trip -/

theorem fromJson_object (key : String) (value : Json) :
    fromJson (.object [(key, value)]) = (fromMember key value).map fun pair => ⟨pair⟩ := by
  unfold fromJson
  cases h : fromMember key value <;>
    simp [bind, Except.bind, pure, Except.pure, Except.map, h]

/-- The name of a listed usage is read in the table it comes from. -/
theorem makeUsagePair_makeName {nameValuePairs : List (String × ℤ)}
    (nodup : (nameValuePairs.map Prod.fst).Nodup) {usage : ℤ}
    (hlisted : listed nameValuePairs usage = true) (usagePage : ℤ) (key : String) :
    makeUsagePair nameValuePairs usagePage key (.string (makeName nameValuePairs usage)) =
      .ok ⟨usagePage, usage⟩ := by
  simp only [makeUsagePair, findUsage_makeName nodup hlisted]

omit [NlohmannJson] in
/-- The usages that the range of `key_code::target` leaves out, and those whose names are also in
the second table. -/
theorem keyCode_names : ∀ pair ∈ keyCodeNameValuePairs,
    (pair.2 = 0x00 ∨ Usage.KeyboardOrKeypad.keyboardA ≤ pair.2 ∧
      pair.2 < Usage.KeyboardOrKeypad.reserved) ∧
    (pair.2 = 0x7f ∨ (otherUsagePagePairs.find? fun other => other.1 = pair.1) = none) := by
  decide +kernel

/-- The `mute` key of the keyboard page is read as the one of the consumer page. -/
theorem fromJson_toJson_mute :
    fromJson (toJson ⟨⟨UsagePage.keyboardOrKeypad, 0x7f⟩⟩) = .ok ⟨⟨UsagePage.consumer, 0xe2⟩⟩ :=
  rfl

omit [NlohmannJson] in
/-- `vk_none` is not written. -/
theorem toJson_vkNone :
    toJson ⟨⟨UsagePage.keyboardOrKeypad, Usage.undefined⟩⟩ = .string "unsupported" := rfl

/-- The keys of the keyboard page. -/
theorem fromJson_toJson_keyCode {usage : ℤ} (hlisted : listed keyCodeNameValuePairs usage = true) :
    fromJson (toJson ⟨⟨UsagePage.keyboardOrKeypad, usage⟩⟩) =
        .ok ⟨⟨UsagePage.keyboardOrKeypad, usage⟩⟩ ↔ usage ≠ 0x7f ∧ usage ≠ Usage.undefined := by
  obtain ⟨hrange, hother⟩ := keyCode_names _ (makeName_mem hlisted)
  by_cases hzero : usage = Usage.undefined
  · subst hzero
    rw [toJson_vkNone]
    exact iff_of_false (fun h => by cases h) fun h => h.2 rfl
  by_cases hmute : usage = 0x7f
  · subst hmute
    rw [fromJson_toJson_mute]
    exact iff_of_false (fun h => absurd (Except.ok.inj h) (by decide)) fun h => h.1 rfl
  refine iff_of_true ?_ ⟨hmute, hzero⟩
  have hwrite : toJson ⟨⟨UsagePage.keyboardOrKeypad, usage⟩⟩ =
      .object [("key_code", .string (makeName keyCodeNameValuePairs usage))] :=
    if_pos ⟨rfl, hrange.resolve_left hzero⟩
  have hread : fromMember "key_code" (.string (makeName keyCodeNameValuePairs usage)) =
      .ok ⟨UsagePage.keyboardOrKeypad, usage⟩ := by
    simp only [fromMember, if_true, keyCodeMakeUsagePair, hother.resolve_left hmute,
      makeUsagePair_makeName nodup_keyCode hlisted]
  rw [hwrite, fromJson_object, hread]
  rfl

/-- A switch that is written with a name of the table it is read from. -/
theorem fromJson_toJson_of_table {nameValuePairs : List (String × ℤ)} (key : String)
    {usagePage usage : ℤ}
    (hwrite : toJson ⟨⟨usagePage, usage⟩⟩ =
      .object [(key, .string (makeName nameValuePairs usage))])
    (hread : ∀ json, fromMember key json = makeUsagePair nameValuePairs usagePage key json)
    (nodup : (nameValuePairs.map Prod.fst).Nodup) (hlisted : listed nameValuePairs usage = true) :
    fromJson (toJson ⟨⟨usagePage, usage⟩⟩) = .ok ⟨⟨usagePage, usage⟩⟩ := by
  rw [hwrite, fromJson_object, hread, makeUsagePair_makeName nodup hlisted]
  rfl

/-- The switches of the other pages. -/
theorem fromJson_toJson_of_ne {e : MomentarySwitchEvent} (hname : e.HasName)
    (hpage : e.usagePair.usagePage ≠ UsagePage.keyboardOrKeypad) :
    fromJson (toJson e) = .ok e := by
  obtain ⟨⟨usagePage, usage⟩⟩ := e
  have hnodup := nodup_nameValuePairs usagePage
  simp only [HasName, nameValuePairs] at hname hpage hnodup
  split_ifs at hname hnodup with h1 h2 h3 h4 h5 h6
  · exact absurd h1 hpage
  · subst h2
    refine fromJson_toJson_of_table "consumer_key_code" ?_ (fun _ => rfl) hnodup hname
    simp [toJson, hname, UsagePage.consumer, UsagePage.keyboardOrKeypad]
  · subst h3
    refine fromJson_toJson_of_table "apple_vendor_keyboard_key_code" ?_ (fun _ => rfl)
      hnodup hname
    simp [toJson, hname, UsagePage.appleVendorKeyboard, UsagePage.consumer,
      UsagePage.keyboardOrKeypad]
  · subst h4
    refine fromJson_toJson_of_table "apple_vendor_top_case_key_code" ?_ (fun _ => rfl)
      hnodup hname
    simp [toJson, hname, UsagePage.appleVendorTopCase, UsagePage.appleVendorKeyboard,
      UsagePage.consumer, UsagePage.keyboardOrKeypad]
  · subst h5
    refine fromJson_toJson_of_table "pointing_button" ?_ (fun _ => rfl) hnodup hname
    simp [toJson, UsagePage.button, UsagePage.appleVendorTopCase, UsagePage.appleVendorKeyboard,
      UsagePage.consumer, UsagePage.keyboardOrKeypad]
  · subst h6
    refine fromJson_toJson_of_table "generic_desktop" ?_ (fun _ => rfl) hnodup hname
    simp [toJson, hname, UsagePage.genericDesktop, UsagePage.button, UsagePage.appleVendorTopCase,
      UsagePage.appleVendorKeyboard, UsagePage.consumer, UsagePage.keyboardOrKeypad]
  · simp [listed] at hname

/-- **A named switch is read back** unless it is `mute` or `vk_none` of the keyboard page. -/
theorem fromJson_toJson {e : MomentarySwitchEvent} (hname : e.HasName) :
    fromJson (toJson e) = .ok e ↔
      e ≠ ⟨⟨UsagePage.keyboardOrKeypad, 0x7f⟩⟩ ∧
        e ≠ ⟨⟨UsagePage.keyboardOrKeypad, Usage.undefined⟩⟩ := by
  by_cases hpage : e.usagePair.usagePage = UsagePage.keyboardOrKeypad
  · obtain ⟨⟨usagePage, usage⟩⟩ := e
    obtain rfl : usagePage = UsagePage.keyboardOrKeypad := hpage
    simpa using fromJson_toJson_keyCode hname
  · refine iff_of_true (fromJson_toJson_of_ne hname hpage) ⟨?_, ?_⟩ <;>
    · rintro rfl
      exact hpage rfl

end

end MomentarySwitchEvent

end Karabiner
