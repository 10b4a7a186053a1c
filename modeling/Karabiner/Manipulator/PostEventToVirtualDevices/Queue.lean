import Karabiner.EventQueue.Event
import Mathlib.Data.Finset.Basic

/-!
# The report queue

`manipulators/post_event_to_virtual_devices/queue.hpp` and `keyboard_repeat_detector.hpp`.  The
queue keeps one accumulator for each kind of HID report; a key event changes the accumulator of its
usage page and appends a copy of it.  Clearing the queue drops the reports that have not been sent,
and keeps the accumulators.

The containers of the reports belong to the driver and are not part of the repository.  They are
a parameter (`HidReport`); what the code relies on is `HidReport.ContainersAreSets`.
-/

namespace Karabiner

/-! ### The containers of the driver -/

/-- `hid_report::keys`, `hid_report::modifiers` and `hid_report::buttons`. -/
class HidReport where
  Keys : Type
  Modifiers : Type
  Buttons : Type
  noKeys : Keys
  insertKey : Keys → ℤ → Keys
  eraseKey : Keys → ℤ → Keys
  keyExists : Keys → ℤ → Bool
  noModifiers : Modifiers
  insertModifier : Modifiers → HidReportModifier → Modifiers
  eraseModifier : Modifiers → HidReportModifier → Modifiers
  modifierExists : Modifiers → HidReportModifier → Bool
  decidableEqButtons : DecidableEq Buttons
  noButtons : Buttons
  insertButton : Buttons → ℕ → Buttons
  buttonExists : Buttons → ℕ → Bool
  buttonsEmpty : Buttons → Bool

namespace HidReport

instance [HidReport] : DecidableEq Buttons := decidableEqButtons

/-- The containers are sets: of usages, of the eight modifier bits, and of the buttons 1 to 32. -/
structure ContainersAreSets [HidReport] : Prop where
  keyExists_noKeys (usage : ℤ) : keyExists noKeys usage = false
  keyExists_insertKey (keys : Keys) (usage usage' : ℤ) :
    keyExists (insertKey keys usage) usage' = (usage' = usage || keyExists keys usage')
  keyExists_eraseKey (keys : Keys) (usage usage' : ℤ) :
    keyExists (eraseKey keys usage) usage' = (usage' ≠ usage && keyExists keys usage')
  modifierExists_noModifiers (m : HidReportModifier) : modifierExists noModifiers m = false
  modifierExists_insertModifier (modifiers : Modifiers) (m m' : HidReportModifier) :
    modifierExists (insertModifier modifiers m) m' = (m' = m || modifierExists modifiers m')
  modifierExists_eraseModifier (modifiers : Modifiers) (m m' : HidReportModifier) :
    modifierExists (eraseModifier modifiers m) m' = (m' ≠ m && modifierExists modifiers m')
  modifiers_ext (modifiers modifiers' : Modifiers)
    (h : ∀ m, modifierExists modifiers m = modifierExists modifiers' m) : modifiers = modifiers'
  buttonExists_noButtons (n : ℕ) : buttonExists noButtons n = false
  buttonExists_insertButton (buttons : Buttons) {n : ℕ} (low : 1 ≤ n) (high : n ≤ 32) (n' : ℕ) :
    buttonExists (insertButton buttons n) n' = (n' = n || buttonExists buttons n')

/-- Containers that are finite sets. -/
@[reducible] def finsets : HidReport where
  Keys := Finset ℤ
  Modifiers := Finset HidReportModifier
  Buttons := Finset ℕ
  noKeys := ∅
  insertKey keys usage := insert usage keys
  eraseKey keys usage := keys.erase usage
  keyExists keys usage := decide (usage ∈ keys)
  noModifiers := ∅
  insertModifier modifiers m := insert m modifiers
  eraseModifier modifiers m := modifiers.erase m
  modifierExists modifiers m := decide (m ∈ modifiers)
  decidableEqButtons := inferInstance
  noButtons := ∅
  insertButton buttons n := insert n buttons
  buttonExists buttons n := decide (n ∈ buttons)
  buttonsEmpty buttons := decide (buttons = ∅)

theorem finsets_containersAreSets : @ContainersAreSets finsets :=
  @ContainersAreSets.mk finsets (fun _ => rfl)
    (fun keys usage usage' => by simp [keyExists, insertKey, Bool.decide_or])
    (fun keys usage usage' => by simp [keyExists, eraseKey, Bool.decide_and])
    (fun _ => rfl)
    (fun modifiers m m' => by simp [modifierExists, insertModifier, Bool.decide_or])
    (fun modifiers m m' => by simp [modifierExists, eraseModifier, Bool.decide_and])
    (fun modifiers modifiers' h => Finset.ext fun m => decide_eq_decide.mp (h m))
    (fun _ => rfl)
    (fun buttons n _ _ n' => by simp [buttonExists, insertButton, Bool.decide_or])

end HidReport

/-! ### The keyboard repeat detector -/

/-- `keyboard_repeat_detector`. -/
structure KeyboardRepeatDetector where
  repeatingKey : Option MomentarySwitchEvent := none
deriving DecidableEq, Repr

namespace KeyboardRepeatDetector

/-- `set`. -/
def set (d : KeyboardRepeatDetector) (e : MomentarySwitchEvent) (eventType : EventType) :
    KeyboardRepeatDetector :=
  if !e.valid then d
  else match eventType with
    | .keyDown => if !e.modifierFlag then ⟨some e⟩ else d
    | .keyUp => if d.repeatingKey = some e then ⟨none⟩ else d
    | .single => d

/-- `clear`. -/
def clear (_ : KeyboardRepeatDetector) : KeyboardRepeatDetector := ⟨none⟩

/-- `is_repeating`. -/
def isRepeating (d : KeyboardRepeatDetector) : Bool := d.repeatingKey.isSome

/-- A modifier key starts no repeat. -/
theorem repeatingKey_of_set_modifier {d : KeyboardRepeatDetector} {e e' : MomentarySwitchEvent}
    {eventType : EventType} (hmodifier : e.modifierFlag = true)
    (h : (d.set e eventType).repeatingKey = some e') : d.repeatingKey = some e' := by
  unfold set at h
  cases eventType <;> simp only [hmodifier, Bool.not_true, Bool.false_eq_true, if_false] at h <;>
    split_ifs at h <;> exact h

end KeyboardRepeatDetector

/-! ### The queue -/

namespace PostEventToVirtualDevices

variable [HidReport]

/-- `hid_report::pointing_input`. -/
structure PointingInput where
  buttons : HidReport.Buttons
  x : ℤ := 0
  y : ℤ := 0
  verticalWheel : ℤ := 0
  horizontalWheel : ℤ := 0

/-- `hid_report::keyboard_input`. -/
structure KeyboardInput where
  modifiers : HidReport.Modifiers := HidReport.noModifiers
  keys : HidReport.Keys := HidReport.noKeys

/-- The types of `queue::event` with their values. -/
inductive EventValue
  | keyboardInput (value : KeyboardInput)
  | consumerInput (keys : HidReport.Keys)
  | appleVendorTopCaseInput (keys : HidReport.Keys)
  | appleVendorKeyboardInput (keys : HidReport.Keys)
  | genericDesktopInput (keys : HidReport.Keys)
  | pointingInput (value : PointingInput)
  | shellCommand (command : String)
  | selectInputSource (specifiers : List InputSourceSpecifier)
  | softwareFunction (f : SoftwareFunction)

/-- `queue::event`. -/
structure Event where
  value : EventValue
  timeStamp : AbsoluteTime

/-- The usage page of a report of keys, and its key set. -/
def EventValue.keys : EventValue → Option (ℤ × HidReport.Keys)
  | .keyboardInput value => some (UsagePage.keyboardOrKeypad, value.keys)
  | .consumerInput keys => some (UsagePage.consumer, keys)
  | .appleVendorTopCaseInput keys => some (UsagePage.appleVendorTopCase, keys)
  | .appleVendorKeyboardInput keys => some (UsagePage.appleVendorKeyboard, keys)
  | .genericDesktopInput keys => some (UsagePage.genericDesktop, keys)
  | .pointingInput _ | .shellCommand _ | .selectInputSource _ | .softwareFunction _ => none

/-- A report of a usage page in which exactly the usages of `pressed` on that page are pressed. -/
def Event.Reports (e : Event) (usagePage : ℤ) (pressed : UsagePair → Prop) : Prop :=
  ∃ keys, e.value.keys = some (usagePage, keys) ∧
    ∀ usage, HidReport.keyExists keys usage = true ↔ pressed ⟨usagePage, usage⟩

/-- A usage is pressed in a report. -/
def Event.Presses (e : Event) (p : UsagePair) : Prop :=
  ∃ keys, e.value.keys = some (p.usagePage, keys) ∧ HidReport.keyExists keys p.usage = true

theorem Event.Reports.presses_iff {e : Event} {usagePage : ℤ} {pressed : UsagePair → Prop}
    (h : e.Reports usagePage pressed) (p : UsagePair) :
    e.Presses p ↔ p.usagePage = usagePage ∧ pressed p := by
  obtain ⟨keys, hkeys, hexists⟩ := h
  constructor
  · rintro ⟨keys', hkeys', hpressed⟩
    rw [hkeys, Option.some.injEq, Prod.mk.injEq] at hkeys'
    obtain ⟨rfl, rfl⟩ := hkeys'
    exact ⟨rfl, (hexists _).mp hpressed⟩
  · rintro ⟨rfl, hpressed⟩
    exact ⟨keys, hkeys, (hexists _).mpr hpressed⟩

/-- Only the usages of the page count. -/
theorem Event.Reports.congr {e : Event} {usagePage : ℤ} {pressed pressed' : UsagePair → Prop}
    (h : e.Reports usagePage pressed)
    (hpressed : ∀ p, p.usagePage = usagePage → (pressed p ↔ pressed' p)) :
    e.Reports usagePage pressed' := by
  obtain ⟨keys, hkeys, hexists⟩ := h
  exact ⟨keys, hkeys, fun usage => (hexists usage).trans (hpressed _ rfl)⟩

/-- `post_event_to_virtual_devices::queue`. -/
structure Queue where
  events : List Event := []
  keyboardRepeatDetector : KeyboardRepeatDetector := {}
  lastEventType : EventType := .single
  lastEventTimeStamp : AbsoluteTime := 0
  keyboardInput : KeyboardInput := {}
  consumerInput : HidReport.Keys := HidReport.noKeys
  appleVendorTopCaseInput : HidReport.Keys := HidReport.noKeys
  appleVendorKeyboardInput : HidReport.Keys := HidReport.noKeys
  genericDesktopInput : HidReport.Keys := HidReport.noKeys

namespace Queue

variable [MachTimebase]

/-- `adjust_time_stamp`: the adjusted time stamp, and the queue with its last event updated. -/
def adjustTimeStamp (q : Queue) (timeStamp : AbsoluteTime) (et : EventType)
    (isModifierKeyEvent : Bool := false) : AbsoluteTime × Queue :=
  let wait := makeAbsoluteTimeDuration 5
  let skip : Bool := match et with
    | .keyDown => false
    | .keyUp => q.lastEventType = .keyUp && !isModifierKeyEvent
    | .single => true
  let t :=
    if !skip && timeStamp < q.lastEventTimeStamp + wait then q.lastEventTimeStamp + wait
    else timeStamp
  (t,
    { q with
      lastEventType := if skip then q.lastEventType else et
      lastEventTimeStamp := if q.lastEventTimeStamp < t then t else q.lastEventTimeStamp })

omit [HidReport] [MachTimebase] in
/-- The modifier bit of a usage pair. -/
def modifierBit (usagePair : UsagePair) : Option HidReportModifier :=
  (MomentarySwitchEvent.makeModifierFlag ⟨usagePair⟩).bind makeHidReportModifier

omit [MachTimebase] in
/-- Insert the usage into a key set, or erase it. -/
def updateKeys (keys : HidReport.Keys) (usage : ℤ) : EventType → HidReport.Keys
  | .keyDown => HidReport.insertKey keys usage
  | .keyUp => HidReport.eraseKey keys usage
  | .single => keys

omit [MachTimebase] in
/-- Change the keyboard report: its modifiers for one of the eight modifier keys, its keys
otherwise. -/
def updateKeyboardInput (k : KeyboardInput) (usagePair : UsagePair) (eventType : EventType) :
    KeyboardInput :=
  match modifierBit usagePair, eventType with
  | some modifier, .keyDown =>
    { k with modifiers := HidReport.insertModifier k.modifiers modifier }
  | some modifier, .keyUp => { k with modifiers := HidReport.eraseModifier k.modifiers modifier }
  | _, _ => { k with keys := updateKeys k.keys usagePair.usage eventType }

/-- Append a report. -/
def emplaceBack (q : Queue) (value : EventValue) (timeStamp : AbsoluteTime) : Queue :=
  { q with events := q.events ++ [⟨value, timeStamp⟩] }

omit [MachTimebase] in
/-- The part of `emplace_back_key_event` that changes the accumulator of the usage page and appends
a copy of it. -/
def emplaceBackReport (q : Queue) (usagePair : UsagePair) (eventType : EventType)
    (timeStamp : AbsoluteTime) : Queue :=
  let usagePage := usagePair.usagePage
  let usage := usagePair.usage
  if usagePage = UsagePage.keyboardOrKeypad then
    let input := updateKeyboardInput q.keyboardInput usagePair eventType
    { q with keyboardInput := input }.emplaceBack (.keyboardInput input) timeStamp
  else if usagePage = UsagePage.consumer then
    let keys := updateKeys q.consumerInput usage eventType
    { q with consumerInput := keys }.emplaceBack (.consumerInput keys) timeStamp
  else if usagePage = UsagePage.appleVendorTopCase then
    let keys := updateKeys q.appleVendorTopCaseInput usage eventType
    { q with appleVendorTopCaseInput := keys }.emplaceBack (.appleVendorTopCaseInput keys)
      timeStamp
  else if usagePage = UsagePage.appleVendorKeyboard then
    let keys := updateKeys q.appleVendorKeyboardInput usage eventType
    { q with appleVendorKeyboardInput := keys }.emplaceBack (.appleVendorKeyboardInput keys)
      timeStamp
  else if usagePage = UsagePage.genericDesktop then
    let keys := updateKeys q.genericDesktopInput usage eventType
    { q with genericDesktopInput := keys }.emplaceBack (.genericDesktopInput keys) timeStamp
  else q

/-- `emplace_back_key_event`. -/
def emplaceBackKeyEvent (q : Queue) (usagePair : UsagePair) (eventType : EventType)
    (timeStamp : AbsoluteTime) : Queue :=
  let mse : MomentarySwitchEvent := ⟨usagePair⟩
  let (t, q) := q.adjustTimeStamp timeStamp eventType mse.modifierFlag
  let q := q.emplaceBackReport usagePair eventType t
  { q with keyboardRepeatDetector := q.keyboardRepeatDetector.set mse eventType }

/-- `emplace_back_pointing_input`. -/
def emplaceBackPointingInput (q : Queue) (pointingInput : PointingInput) (eventType : EventType)
    (timeStamp : AbsoluteTime) : Queue :=
  let (t, q) := q.adjustTimeStamp timeStamp eventType
  q.emplaceBack (.pointingInput pointingInput) t

/-- `push_back_shell_command_event`, without a call of `adjust_time_stamp`. -/
def pushBackShellCommandEvent (q : Queue) (shellCommand : String) (timeStamp : AbsoluteTime) :
    Queue :=
  q.emplaceBack (.shellCommand shellCommand) timeStamp

/-- `push_back_select_input_source_event`, without a call of `adjust_time_stamp`. -/
def pushBackSelectInputSourceEvent (q : Queue) (specifiers : List InputSourceSpecifier)
    (timeStamp : AbsoluteTime) : Queue :=
  q.emplaceBack (.selectInputSource specifiers) timeStamp

/-- `push_back_software_function_event`, without a call of `adjust_time_stamp`. -/
def pushBackSoftwareFunctionEvent (q : Queue) (f : SoftwareFunction) (timeStamp : AbsoluteTime) :
    Queue :=
  q.emplaceBack (.softwareFunction f) timeStamp

/-- `clear`. -/
def clear (q : Queue) : Queue :=
  { q with events := [], keyboardRepeatDetector := q.keyboardRepeatDetector.clear }

/-! ### What the accumulators become -/

omit [HidReport] [MachTimebase] in
/-- The usage pages that are reported. -/
def reportedPages : List ℤ :=
  [UsagePage.keyboardOrKeypad, UsagePage.consumer, UsagePage.appleVendorTopCase,
    UsagePage.appleVendorKeyboard, UsagePage.genericDesktop]

/-- The accumulated key set of a usage page, for the pages that are reported. -/
def keysOf (q : Queue) (usagePage : ℤ) : Option HidReport.Keys :=
  if usagePage = UsagePage.keyboardOrKeypad then some q.keyboardInput.keys
  else if usagePage = UsagePage.consumer then some q.consumerInput
  else if usagePage = UsagePage.appleVendorTopCase then some q.appleVendorTopCaseInput
  else if usagePage = UsagePage.appleVendorKeyboard then some q.appleVendorKeyboardInput
  else if usagePage = UsagePage.genericDesktop then some q.genericDesktopInput
  else none

omit [MachTimebase] in
/-- The report of a usage page: a copy of its accumulator. -/
def reportOf (q : Queue) (usagePage : ℤ) : Option EventValue :=
  if usagePage = UsagePage.keyboardOrKeypad then some (.keyboardInput q.keyboardInput)
  else if usagePage = UsagePage.consumer then some (.consumerInput q.consumerInput)
  else if usagePage = UsagePage.appleVendorTopCase then
    some (.appleVendorTopCaseInput q.appleVendorTopCaseInput)
  else if usagePage = UsagePage.appleVendorKeyboard then
    some (.appleVendorKeyboardInput q.appleVendorKeyboardInput)
  else if usagePage = UsagePage.genericDesktop then
    some (.genericDesktopInput q.genericDesktopInput)
  else none

omit [MachTimebase] in
/-- The accumulator of a usage page is changed first, and its copy is appended. -/
theorem events_emplaceBackReport (q : Queue) (usagePair : UsagePair) (eventType : EventType)
    (timeStamp : AbsoluteTime) :
    let q' := q.emplaceBackReport usagePair eventType timeStamp
    q'.events = q.events ++ (q'.reportOf usagePair.usagePage).toList.map (⟨·, timeStamp⟩) := by
  unfold emplaceBackReport reportOf
  dsimp only
  split_ifs
  case neg => exact (List.append_nil _).symm
  all_goals rfl

/-- **What a key event appends**: the accumulator of its usage page, at the adjusted time stamp. -/
theorem events_emplaceBackKeyEvent (q : Queue) (usagePair : UsagePair) (eventType : EventType)
    (timeStamp : AbsoluteTime) :
    let q' := q.emplaceBackKeyEvent usagePair eventType timeStamp
    q'.events = q.events ++ (q'.reportOf usagePair.usagePage).toList.map
      (⟨·, (q.adjustTimeStamp timeStamp eventType
        (MomentarySwitchEvent.modifierFlag ⟨usagePair⟩)).1⟩) :=
  events_emplaceBackReport (q.adjustTimeStamp timeStamp eventType _).2 usagePair eventType _

omit [HidReport] [MachTimebase] in
/-- The eight modifier keys are on the keyboard page. -/
theorem usagePage_of_modifierBit {usagePair : UsagePair} {r : HidReportModifier}
    (h : modifierBit usagePair = some r) : usagePair.usagePage = UsagePage.keyboardOrKeypad := by
  by_contra hpage
  simp only [modifierBit, MomentarySwitchEvent.makeModifierFlag, if_neg hpage] at h
  split_ifs at h <;> simp [makeHidReportModifier] at h

@[simp] theorem keyboardRepeatDetector_emplaceBackKeyEvent (q : Queue) (usagePair : UsagePair)
    (eventType : EventType) (timeStamp : AbsoluteTime) :
    (q.emplaceBackKeyEvent usagePair eventType timeStamp).keyboardRepeatDetector =
      q.keyboardRepeatDetector.set ⟨usagePair⟩ eventType := by
  have hreport : ∀ (q : Queue) t, (q.emplaceBackReport usagePair eventType t).keyboardRepeatDetector
      = q.keyboardRepeatDetector := fun q t => by
    simp only [emplaceBackReport]
    split_ifs <;> rfl
  simp only [emplaceBackKeyEvent, hreport]
  rfl

omit [MachTimebase] in
theorem keysOf_emplaceBackReport (q : Queue) {usagePair : UsagePair}
    (h : modifierBit usagePair = none) (eventType : EventType) (timeStamp : AbsoluteTime)
    (usagePage : ℤ) :
    (q.emplaceBackReport usagePair eventType timeStamp).keysOf usagePage =
      if usagePage = usagePair.usagePage then
        (q.keysOf usagePage).map (updateKeys · usagePair.usage eventType)
      else q.keysOf usagePage := by
  have hinput : (updateKeyboardInput q.keyboardInput usagePair eventType).keys =
      updateKeys q.keyboardInput.keys usagePair.usage eventType := by
    simp only [updateKeyboardInput, h]
  simp only [emplaceBackReport, emplaceBack]
  by_cases hpage : usagePage = usagePair.usagePage
  · subst hpage
    rw [if_pos rfl]
    split_ifs <;> simp only [keysOf] <;> split_ifs <;> first | rfl | exact congrArg some hinput
  · rw [if_neg hpage]
    split_ifs <;> simp only [keysOf] <;> split_ifs <;> first | rfl | (exfalso; omega)

/-- A key that is not one of the eight modifiers changes the key set of its page. -/
theorem keysOf_emplaceBackKeyEvent (q : Queue) {usagePair : UsagePair}
    (h : modifierBit usagePair = none) (eventType : EventType) (timeStamp : AbsoluteTime)
    (usagePage : ℤ) :
    (q.emplaceBackKeyEvent usagePair eventType timeStamp).keysOf usagePage =
      if usagePage = usagePair.usagePage then
        (q.keysOf usagePage).map (updateKeys · usagePair.usage eventType)
      else q.keysOf usagePage :=
  keysOf_emplaceBackReport (q.adjustTimeStamp timeStamp eventType _).2 h eventType _ usagePage

/-- It leaves the modifiers alone. -/
theorem modifiers_emplaceBackKeyEvent (q : Queue) {usagePair : UsagePair}
    (h : modifierBit usagePair = none) (eventType : EventType) (timeStamp : AbsoluteTime) :
    (q.emplaceBackKeyEvent usagePair eventType timeStamp).keyboardInput.modifiers =
      q.keyboardInput.modifiers := by
  have hreport : ∀ (q : Queue) t,
      (q.emplaceBackReport usagePair eventType t).keyboardInput.modifiers =
        q.keyboardInput.modifiers := fun q t => by
    simp only [emplaceBackReport]
    split_ifs
    · simp only [emplaceBack, updateKeyboardInput, h]
    all_goals rfl
  exact hreport (q.adjustTimeStamp timeStamp eventType _).2 _

/-- One of the eight modifiers leaves the key sets alone. -/
theorem keysOf_emplaceBackKeyEvent_modifier (q : Queue) {usagePair : UsagePair}
    {r : HidReportModifier} (h : modifierBit usagePair = some r) {eventType : EventType}
    (hsingle : eventType ≠ .single) (timeStamp : AbsoluteTime) (usagePage : ℤ) :
    (q.emplaceBackKeyEvent usagePair eventType timeStamp).keysOf usagePage =
      q.keysOf usagePage := by
  have hinput : ∀ k : KeyboardInput, (updateKeyboardInput k usagePair eventType).keys =
      k.keys := fun k => by
    cases eventType <;> simp_all only [updateKeyboardInput, ne_eq, not_true_eq_false]
  have hreport : ∀ (q : Queue) t, (q.emplaceBackReport usagePair eventType t).keysOf usagePage =
      q.keysOf usagePage := fun q t => by
    simp only [emplaceBackReport, if_pos (usagePage_of_modifierBit h), keysOf, emplaceBack, hinput]
  exact hreport (q.adjustTimeStamp timeStamp eventType _).2 _

/-- It changes its bit. -/
theorem modifiers_emplaceBackKeyEvent_modifier (q : Queue) {usagePair : UsagePair}
    {r : HidReportModifier} (h : modifierBit usagePair = some r) (timeStamp : AbsoluteTime) :
    (q.emplaceBackKeyEvent usagePair .keyDown timeStamp).keyboardInput.modifiers =
        HidReport.insertModifier q.keyboardInput.modifiers r ∧
      (q.emplaceBackKeyEvent usagePair .keyUp timeStamp).keyboardInput.modifiers =
        HidReport.eraseModifier q.keyboardInput.modifiers r := by
  simp only [emplaceBackKeyEvent, emplaceBackReport, if_pos (usagePage_of_modifierBit h),
    emplaceBack, updateKeyboardInput, h]
  exact ⟨rfl, rfl⟩

/-! ### Usages in the key sets -/

omit [MachTimebase] in
theorem exists_keysOf (q : Queue) {usagePage : ℤ} (h : usagePage ∈ reportedPages) :
    ∃ keys, q.keysOf usagePage = some keys := by
  unfold keysOf
  split_ifs with h1 h2 h3 h4 h5
  case neg => simp [reportedPages, h1, h2, h3, h4, h5] at h
  all_goals exact ⟨_, rfl⟩

/-- The usage is in the accumulated key set of its page. -/
def reported (q : Queue) (usagePair : UsagePair) : Bool :=
  (q.keysOf usagePair.usagePage).any (HidReport.keyExists · usagePair.usage)

omit [MachTimebase] in
/-- Nothing is reported of any other page. -/
theorem reported_of_not_mem (q : Queue) {p : UsagePair} (h : p.usagePage ∉ reportedPages) :
    q.reported p = false := by
  have hkeys : q.keysOf p.usagePage = none := by
    unfold keysOf
    split_ifs with h1 h2 h3 h4 h5
    case neg => rfl
    all_goals simp [reportedPages, *] at h
  rw [reported, hkeys]
  rfl

omit [MachTimebase] in
/-- A page that is reported has a report, of the usages in its accumulator. -/
theorem exists_reportOf (q : Queue) {usagePage : ℤ} (h : usagePage ∈ reportedPages) :
    ∃ value, q.reportOf usagePage = some value ∧
      ∀ t, Event.Reports ⟨value, t⟩ usagePage fun p => q.reported p = true := by
  obtain ⟨keys, hkeys⟩ := q.exists_keysOf h
  have hvalue : ∃ value, q.reportOf usagePage = some value ∧
      value.keys = some (usagePage, keys) := by
    unfold reportOf
    unfold keysOf at hkeys
    split_ifs at hkeys ⊢ with h1 h2 h3 h4 h5 <;> cases hkeys <;>
      exact ⟨_, rfl, by simp [EventValue.keys, *]⟩
  obtain ⟨value, hreport, hvalue⟩ := hvalue
  refine ⟨value, hreport, fun t => ⟨keys, hvalue, fun usage => ?_⟩⟩
  show _ ↔ q.reported ⟨usagePage, usage⟩ = true
  rw [reported, hkeys]
  rfl

/-- **The report of a key event**, for the pages that are reported. -/
theorem exists_report (q : Queue) {usagePair : UsagePair} (h : usagePair.usagePage ∈ reportedPages)
    (eventType : EventType) (timeStamp : AbsoluteTime) :
    let q' := q.emplaceBackKeyEvent usagePair eventType timeStamp
    ∃ report, q'.events = q.events ++ [report] ∧
      report.Reports usagePair.usagePage (fun p => q'.reported p = true) ∧
      ∀ input, report.value = .keyboardInput input → input = q'.keyboardInput := by
  intro q'
  obtain ⟨value, hvalue, hreports⟩ := q'.exists_reportOf h
  refine ⟨_, ?_, hreports (q.adjustTimeStamp timeStamp eventType
    (MomentarySwitchEvent.modifierFlag ⟨usagePair⟩)).1, fun input hinput => ?_⟩
  · rw [q.events_emplaceBackKeyEvent usagePair eventType timeStamp, hvalue]
    rfl
  · unfold reportOf at hvalue
    split_ifs at hvalue <;> cases hvalue <;> cases hinput
    rfl

omit [MachTimebase] in
/-- No other page has a report. -/
theorem reportOf_of_not_mem (q : Queue) {usagePage : ℤ} (h : usagePage ∉ reportedPages) :
    q.reportOf usagePage = none := by
  unfold reportOf
  split_ifs with h1 h2 h3 h4 h5
  case neg => rfl
  all_goals simp [reportedPages, *] at h

theorem events_of_not_mem (q : Queue) {usagePair : UsagePair}
    (h : usagePair.usagePage ∉ reportedPages) (eventType : EventType) (timeStamp : AbsoluteTime) :
    (q.emplaceBackKeyEvent usagePair eventType timeStamp).events = q.events := by
  rw [q.events_emplaceBackKeyEvent usagePair eventType timeStamp, reportOf_of_not_mem _ h]
  exact List.append_nil _

/-- A key_down of a key that is not one of the eight modifiers adds its usage. -/
theorem reported_keyDown (sets : HidReport.ContainersAreSets) (q : Queue) {p : UsagePair}
    (h : modifierBit p = none) (timeStamp : AbsoluteTime) {p' : UsagePair}
    (hpage : p'.usagePage ∈ reportedPages) :
    (q.emplaceBackKeyEvent p .keyDown timeStamp).reported p' = (p' = p || q.reported p') := by
  obtain ⟨keys, hkeys⟩ := q.exists_keysOf hpage
  obtain ⟨page, usage⟩ := p
  obtain ⟨page', usage'⟩ := p'
  rw [reported, reported, keysOf_emplaceBackKeyEvent q h, hkeys]
  by_cases hpages : page' = page
  · simp [hpages, updateKeys, sets.keyExists_insertKey]
  · simp [hpages]

/-- A key_up removes it. -/
theorem reported_keyUp (sets : HidReport.ContainersAreSets) (q : Queue) {p : UsagePair}
    (h : modifierBit p = none) (timeStamp : AbsoluteTime) {p' : UsagePair}
    (hpage : p'.usagePage ∈ reportedPages) :
    (q.emplaceBackKeyEvent p .keyUp timeStamp).reported p' = (p' ≠ p && q.reported p') := by
  obtain ⟨keys, hkeys⟩ := q.exists_keysOf hpage
  obtain ⟨page, usage⟩ := p
  obtain ⟨page', usage'⟩ := p'
  rw [reported, reported, keysOf_emplaceBackKeyEvent q h, hkeys]
  by_cases hpages : page' = page
  · simp [hpages, updateKeys, sets.keyExists_eraseKey]
  · simp [hpages]

/-- One of the eight modifiers changes no key set. -/
theorem reported_modifier (q : Queue) {p : UsagePair} {r : HidReportModifier}
    (h : modifierBit p = some r) {eventType : EventType} (hsingle : eventType ≠ .single)
    (timeStamp : AbsoluteTime) (p' : UsagePair) :
    (q.emplaceBackKeyEvent p eventType timeStamp).reported p' = q.reported p' := by
  rw [reported, keysOf_emplaceBackKeyEvent_modifier q h hsingle, reported]

/-- A key event changes what is pressed of its own usage only. -/
theorem reported_of_ne (sets : HidReport.ContainersAreSets) (q : Queue) {p p' : UsagePair}
    (hne : p' ≠ p) {eventType : EventType} (hsingle : eventType ≠ .single)
    (timeStamp : AbsoluteTime) :
    (q.emplaceBackKeyEvent p eventType timeStamp).reported p' = q.reported p' := by
  by_cases hpage : p'.usagePage ∈ reportedPages
  · cases hbit : modifierBit p with
    | some r => exact q.reported_modifier hbit hsingle timeStamp p'
    | none =>
        cases eventType with
        | keyDown => rw [q.reported_keyDown sets hbit timeStamp hpage, decide_eq_false hne,
            Bool.false_or]
        | keyUp => rw [q.reported_keyUp sets hbit timeStamp hpage, decide_eq_true hne,
            Bool.true_and]
        | single => exact absurd rfl hsingle
  · rw [reported_of_not_mem _ hpage, reported_of_not_mem _ hpage]

/-- The report of a key_down of a key that is not one of the eight modifiers. -/
theorem exists_report_keyDown (sets : HidReport.ContainersAreSets) (q : Queue) {p : UsagePair}
    (h : modifierBit p = none) (hpage : p.usagePage ∈ reportedPages) (timeStamp : AbsoluteTime) :
    ∃ report, (q.emplaceBackKeyEvent p .keyDown timeStamp).events = q.events ++ [report] ∧
      report.Reports p.usagePage (fun p' => p' = p ∨ q.reported p' = true) ∧
      ∀ input, report.value = .keyboardInput input →
        input.modifiers = q.keyboardInput.modifiers := by
  obtain ⟨report, hevents, hreports, hinput⟩ := q.exists_report hpage .keyDown timeStamp
  refine ⟨report, hevents, hreports.congr fun p' hp' => ?_, fun input hvalue => ?_⟩
  · rw [q.reported_keyDown sets h timeStamp (hp' ▸ hpage), Bool.or_eq_true, decide_eq_true_eq]
  · rw [hinput input hvalue, q.modifiers_emplaceBackKeyEvent h]

/-- The report of its key_up. -/
theorem exists_report_keyUp (sets : HidReport.ContainersAreSets) (q : Queue) {p : UsagePair}
    (h : modifierBit p = none) (hpage : p.usagePage ∈ reportedPages) (timeStamp : AbsoluteTime) :
    ∃ report, (q.emplaceBackKeyEvent p .keyUp timeStamp).events = q.events ++ [report] ∧
      report.Reports p.usagePage (fun p' => p' ≠ p ∧ q.reported p' = true) ∧
      ∀ input, report.value = .keyboardInput input →
        input.modifiers = q.keyboardInput.modifiers := by
  obtain ⟨report, hevents, hreports, hinput⟩ := q.exists_report hpage .keyUp timeStamp
  refine ⟨report, hevents, hreports.congr fun p' hp' => ?_, fun input hvalue => ?_⟩
  · rw [q.reported_keyUp sets h timeStamp (hp' ▸ hpage), Bool.and_eq_true, decide_eq_true_eq]
  · rw [hinput input hvalue, q.modifiers_emplaceBackKeyEvent h]

end Queue

end PostEventToVirtualDevices

end Karabiner
