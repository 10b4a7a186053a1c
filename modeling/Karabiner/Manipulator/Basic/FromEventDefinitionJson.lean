import Karabiner.Manipulator.Basic.FromEventDefinition
import Karabiner.Manipulator.Types.ToEventDefinitionJson

/-!
# The JSON of what a rule maps from

The reader of `manipulators/basic/from_event_definition.hpp` and the constructor of
`simultaneous_options.hpp`.

* `FromEventDefinitionObject.wellFormed_of_fromJson` — every event definition that `from` accepts
  is well-formed: the reader refuses the only type that can lack its value.
* `EventDefinitionObject.sound_iff` — **which accepted definitions can be used** without an
  exception.
-/

namespace Karabiner

open JsonUtility

/-! ### Simultaneous options -/

/-- The members of a `simultaneous_options`, by default those that its constructor sets. -/
structure SimultaneousOptionsObject where
  detectKeyDownUninterruptedly : Bool := false
  keyDownOrder : KeyOrder := .insensitive
  keyUpOrder : KeyOrder := .insensitive
  keyUpWhen : KeyUpWhen := .any
  toAfterKeyUp : List ToEventDefinitionObject := []

/-- `from_json` of a `key_order`. -/
def KeyOrder.fromJson [NlohmannJson] (json : Json) : JsonM KeyOrder := do
  let s ← requiresString json "json"
  if s = "insensitive" then return .insensitive
  else if s = "strict" then return .strict
  else if s = "strict_inverse" then return .strictInverse
  else .error (.unmarshalError ("unknown value: " ++ quote s))

/-- `from_json` of a `key_up_when`. -/
def KeyUpWhen.fromJson [NlohmannJson] (json : Json) : JsonM KeyUpWhen := do
  let s ← requiresString json "json"
  if s = "any" then return .any
  else if s = "all" then return .all
  else .error (.unmarshalError ("unknown value: " ++ quote s))

variable [NlohmannJson] [Regex] [Exprtk]

/-- The constructor of `simultaneous_options` from JSON. -/
def SimultaneousOptionsObject.fromJson (allocate : String → ℕ) (json : Json) :
    JsonM SimultaneousOptionsObject :=
  readObject
    (fun options key value =>
      if key = "detect_key_down_uninterruptedly" then
        return { options with
          detectKeyDownUninterruptedly := ← requiresBoolean value (quote key) }
      else if key = "key_down_order" then
        return { options with keyDownOrder := ← atPath (quote key) (KeyOrder.fromJson value) }
      else if key = "key_up_order" then
        return { options with keyUpOrder := ← atPath (quote key) (KeyOrder.fromJson value) }
      else if key = "key_up_when" then
        return { options with keyUpWhen := ← atPath (quote key) (KeyUpWhen.fromJson value) }
      else if key = "to_after_key_up" then
        return { options with
          toAfterKeyUp := options.toAfterKeyUp ++
            (← ToEventDefinitionObject.readList allocate key value) }
      else if key = "description" then return options
      else .error (ConditionFactory.unknownKeyIn key json))
    {} json

/-! ### `from_event_definition` -/

/-- The members of a `from_event_definition`. -/
structure FromEventDefinitionObject where
  eventDefinitions : List EventDefinitionObject := []
  fromModifiersDefinition : FromModifiersDefinition := {}
  simultaneousOptions : SimultaneousOptionsObject := {}

namespace FromEventDefinitionObject

/-- An entry of `simultaneous`.  The errors show the entry or the whole object. -/
def readSimultaneousEntry (key : String) (json : Json) (allocate : String → ℕ) (j : Json) :
    JsonM EventDefinitionObject := do
  let members ← requiresObject j (quote key ++ " entry")
  let d ← readMembers
    (fun d k v => do
      match ← EventDefinitionObject.handleJson allocate d k v j with
      | some d => return d
      | none => .error (.unmarshalError
          ("unknown key: " ++ quote k ++ " in `" ++ dumpForErrorMessage j)))
    ({} : EventDefinitionObject) members
  if d.type = .none then
    .error (.unmarshalError ("event type is invalid: " ++ quote (dumpForErrorMessage json)))
  else return d

/-- The members that describe no event. -/
def readOption (allocate : String → ℕ) (json : Json) (d : FromEventDefinitionObject) (key : String)
    (value : Json) : JsonM FromEventDefinitionObject :=
  if key = "modifiers" then
    return { d with
      fromModifiersDefinition := ← atPath (quote key) (FromModifiersDefinition.fromJson value) }
  else if key = "simultaneous" then do
    let elements ← requiresArray value (quote key)
    let eventDefinitions ← ToEventDefinitionObject.readElements
      (readSimultaneousEntry key json) allocate elements
    return { d with eventDefinitions := d.eventDefinitions ++ eventDefinitions }
  else if key = "simultaneous_options" then
    return { d with
      simultaneousOptions :=
        ← atPath (quote key) (SimultaneousOptionsObject.fromJson allocate value) }
  else .error (.unmarshalError
    ("`from` error: unknown key " ++ quote key ++ " in " ++ quote (dumpForErrorMessage json)))

/-- One member, with the default event definition. -/
def readMember (allocate : String → ℕ) (json : Json)
    (s : FromEventDefinitionObject × EventDefinitionObject) (key : String) (value : Json) :
    JsonM (FromEventDefinitionObject × EventDefinitionObject) := do
  match ← s.2.handleJson allocate key value json with
  | some e => return (s.1, e)
  | none => return (← s.1.readOption allocate json key value, s.2)

/-- `from_json`. -/
def fromJson (allocate : String → ℕ) (json : Json) : JsonM FromEventDefinitionObject := do
  let (d, defaultEventDefinition) ← readObject (readMember allocate json) ({}, {}) json
  let eventDefinitions :=
    if d.eventDefinitions = [] ∧ defaultEventDefinition.type ≠ .none then [defaultEventDefinition]
    else d.eventDefinitions
  if eventDefinitions = [] then
    .error (.unmarshalError ("event is not specified: " ++ quote (dumpForErrorMessage json)))
  else if ∃ e ∈ eventDefinitions, e.type ≠ .momentarySwitchEvent ∧ e.type ≠ .any then
    .error (.unmarshalError ("event type is invalid: " ++ quote (dumpForErrorMessage json)))
  else return { d with eventDefinitions := eventDefinitions }

/-! ### What is accepted -/

/-- An entry of `simultaneous` is well-formed or a sticky modifier. -/
theorem wellFormed_or_of_readSimultaneousEntry {key : String} {json j : Json}
    {allocate : String → ℕ} {e : EventDefinitionObject}
    (h : readSimultaneousEntry key json allocate j = .ok e) :
    ¬e.WellFormed → e.type = .stickyModifier := by
  obtain ⟨members, -, h⟩ := JsonM.bind_eq_ok.mp h
  obtain ⟨d, hread, h⟩ := JsonM.bind_eq_ok.mp h
  have hreads : d.Reads members := by
    refine readMembers_invariant (P := fun members d => d.Reads members)
      EventDefinitionObject.reads_nil (fun members d k v d' hd h => ?_) hread
    obtain ⟨e, he, h⟩ := JsonM.bind_eq_ok.mp h
    cases e with
    | some e =>
        obtain rfl := Except.ok.inj h
        exact hd.concat_of_handled (EventDefinitionObject.handled_of_handleJson he)
    | none => cases h
  split_ifs at h with htype
  obtain rfl := Except.ok.inj h
  exact hreads.stickyModifier

/-- A member that describes no event adds such entries only. -/
theorem readOption_spec {allocate : String → ℕ} {json : Json} {d d' : FromEventDefinitionObject}
    {key : String} {value : Json} (h : d.readOption allocate json key value = .ok d') :
    key ≠ "sticky_modifier" ∧
      ∀ e ∈ d'.eventDefinitions, e ∈ d.eventDefinitions ∨
        (¬e.WellFormed → e.type = .stickyModifier) := by
  unfold readOption at h
  split_ifs at h with hmodifiers hsimultaneous hoptions
  · obtain ⟨_, -, rfl⟩ := JsonM.bind_pure_eq_ok.mp h
    exact ⟨by simp [hmodifiers], fun _ => .inl⟩
  · obtain ⟨elements, -, h⟩ := JsonM.bind_eq_ok.mp h
    obtain ⟨eventDefinitions, hread, rfl⟩ := JsonM.bind_pure_eq_ok.mp h
    refine ⟨by simp [hsimultaneous], fun e he => (List.mem_append.mp he).imp_right fun he => ?_⟩
    obtain ⟨_, -, hentry⟩ := exists_of_mem_mapM hread he
    exact wellFormed_or_of_readSimultaneousEntry hentry
  · obtain ⟨_, -, rfl⟩ := JsonM.bind_pure_eq_ok.mp h
    exact ⟨by simp [hoptions], fun _ => .inl⟩

/-- The definitions after some members are well-formed or sticky modifiers. -/
theorem reads_of_readMembers {allocate : String → ℕ} {json : Json} {members : Json.Members}
    {s : FromEventDefinitionObject × EventDefinitionObject}
    (h : readMembers (readMember allocate json) ({}, {}) members = .ok s) :
    s.2.Reads members ∧ ∀ e ∈ s.1.eventDefinitions, ¬e.WellFormed → e.type = .stickyModifier := by
  refine readMembers_invariant
    (P := fun members (s : FromEventDefinitionObject × EventDefinitionObject) => s.2.Reads members ∧
      ∀ e ∈ s.1.eventDefinitions, ¬e.WellFormed → e.type = .stickyModifier)
    ⟨EventDefinitionObject.reads_nil, by simp⟩ (fun members s key value s' hs h => ?_) h
  obtain ⟨hdefault, hentries⟩ := hs
  obtain ⟨e, he, h⟩ := JsonM.bind_eq_ok.mp h
  cases e with
  | some e =>
      obtain rfl := Except.ok.inj h
      exact ⟨hdefault.concat_of_handled (EventDefinitionObject.handled_of_handleJson he), hentries⟩
  | none =>
      obtain ⟨d, hd, rfl⟩ := JsonM.bind_pure_eq_ok.mp h
      obtain ⟨hkey, hnew⟩ := readOption_spec hd
      exact ⟨hdefault.concat_of_ne value hkey, fun e he => (hnew e he).elim (hentries e) id⟩

/-- Every event definition that `from` accepts is well-formed. -/
theorem wellFormed_of_fromJson {allocate : String → ℕ} {json : Json}
    {d : FromEventDefinitionObject} (h : fromJson allocate json = .ok d) :
    ∀ e ∈ d.eventDefinitions, e.WellFormed := by
  obtain ⟨⟨d, defaultEventDefinition⟩, hread, h⟩ := JsonM.bind_eq_ok.mp h
  obtain ⟨members, -, hread⟩ := JsonM.bind_eq_ok.mp hread
  obtain ⟨hdefault, hentries⟩ := reads_of_readMembers hread
  dsimp only at h hdefault hentries
  generalize hlist : (if d.eventDefinitions = [] ∧ defaultEventDefinition.type ≠ .none then
    [defaultEventDefinition] else d.eventDefinitions) = eventDefinitions at h
  have hsticky : ∀ e ∈ eventDefinitions, ¬e.WellFormed → e.type = .stickyModifier := by
    rw [← hlist]
    split_ifs
    · intro e he
      obtain rfl := List.mem_singleton.mp he
      exact hdefault.stickyModifier
    · exact hentries
  split_ifs at h with hempty htype
  obtain rfl := Except.ok.inj h
  intro e he
  -- The reader has refused a sticky modifier.
  by_contra hwf
  have hnot := hsticky e he hwf
  exact htype ⟨e, he, by simp [hnot]⟩

end FromEventDefinitionObject

/-! ### What can be used -/

namespace EventDefinitionObject

/-- **Which accepted definitions can be used**: of the definitions that a rule maps to all but those
with an empty `sticky_modifier`, and all that a rule maps from. -/
theorem sound_iff (allocate : String → ℕ) (json : Json) :
    (∀ d, ToEventDefinitionObject.fromJson allocate json = .ok d →
      (d.eventDefinition.Sound ↔
        ¬∃ members, json = .object members ∧ HasEmptyStickyModifier members)) ∧
    ∀ d, FromEventDefinitionObject.fromJson allocate json = .ok d →
      ∀ e ∈ d.eventDefinitions, e.Sound := by
  constructor
  · intro d h
    rw [sound_iff_wellFormed, ToEventDefinitionObject.wellFormed_iff h]
    simp
  · intro d h e he
    exact sound_iff_wellFormed.mpr (FromEventDefinitionObject.wellFormed_of_fromJson h e he)

omit [NlohmannJson] [Regex] [Exprtk] in
/-- `sound_iff` for `{"sticky_modifier": {"left_shift": "on"}}`, which a rule may map to, and for
`{"key_code": "a"}`, which it may map from. -/
theorem sound_iff_accepted :
    ∃ (_ : NlohmannJson) (_ : Regex) (_ : Exprtk),
      (∃ d, ToEventDefinitionObject.fromJson (fun _ => 0)
          (.object [("sticky_modifier", .object [("left_shift", .string "on")])]) = .ok d ∧
        d.eventDefinition.Sound) ∧
      ∃ d, FromEventDefinitionObject.fromJson (fun _ => 0)
          (.object [("key_code", .string "a")]) = .ok d ∧
        d.eventDefinitions.length = 1 ∧ ∀ e ∈ d.eventDefinitions, e.Sound := by
  let json : NlohmannJson := ⟨fun _ => "", fun _ => none⟩
  let regex : Regex := ⟨fun _ => none⟩
  let exprtk : Exprtk := .singleVariable
  let stickyShift : Json := .object [("sticky_modifier", .object [("left_shift", .string "on")])]
  refine ⟨json, regex, exprtk, ⟨_, rfl, ?_⟩, ⟨_, rfl, rfl, ?_⟩⟩
  · refine ((sound_iff (fun _ => 0) stickyShift).1 _ rfl).mpr ?_
    rintro ⟨members, hmembers, hempty⟩
    obtain rfl := Json.object.inj hmembers
    simp [HasEmptyStickyModifier] at hempty
  · exact (sound_iff (fun _ => 0) (.object [("key_code", .string "a")])).2 _ rfl

/-- The definition `{"sticky_modifier": {}}`. -/
def emptyStickyModifier : Json := .object [("sticky_modifier", .object [])]

omit [NlohmannJson] [Regex] [Exprtk] in
/-- It is accepted with the type `sticky_modifier` and no value, and `to_event` throws. -/
theorem not_sound_emptyStickyModifier :
    ¬∀ (_ : NlohmannJson) (_ : Regex) (_ : Exprtk) (allocate : String → ℕ) (json : Json),
      (∀ d, ToEventDefinitionObject.fromJson allocate json = .ok d → d.eventDefinition.Sound) ∧
      ∀ d, FromEventDefinitionObject.fromJson allocate json = .ok d →
        ∀ e ∈ d.eventDefinitions, e.Sound := by
  intro h
  let json : NlohmannJson := ⟨fun _ => "", fun _ => none⟩
  let regex : Regex := ⟨fun _ => none⟩
  let exprtk : Exprtk := .singleVariable
  have hsound := (h json regex exprtk (fun _ => 0) emptyStickyModifier).1
    { eventDefinition := ⟨.stickyModifier, .monostate⟩ } rfl
  obtain ⟨event, hevent⟩ := hsound.toEvent
  cases hevent

end EventDefinitionObject

end Karabiner
