import Karabiner.Library.Json
import Mathlib.Data.List.Forall2
import Mathlib.Data.List.Induction

/-!
# Reading and writing JSON

`share/json_utility.hpp` and the vendored `pqrs/json.hpp`: the checks that every reader makes, with
the errors they raise, and the representation of a string that has several lines.

Only an `unmarshal_error` is caught and raised again with a field path; any other exception passes
through all readers.

* `unmarshalString_marshalString` — **a string survives** unless it ends with a newline.
-/

namespace Karabiner

/-- The vendored `nlohmann::json`: how values are written and read as text. -/
class NlohmannJson where
  dump : Json → String
  /-- `nlohmann::json::parse` with comments, `none` for a `parse_error`. -/
  parse : String → Option Json

/-- The texts of the values in a table. -/
@[reducible] def NlohmannJson.ofTable (table : List (String × Json)) : NlohmannJson where
  dump json := ((table.find? fun entry => entry.2 == json).map Prod.fst).getD ""
  parse text := table.lookup text

/-- A text that stands once in a table is parsed to its value. -/
theorem NlohmannJson.parse_ofTable {table : List (String × Json)}
    (hnodup : (table.map Prod.fst).Nodup) {entry : String × Json} (hentry : entry ∈ table) :
    (NlohmannJson.ofTable table).parse entry.1 = some entry.2 := by
  obtain ⟨before, after, rfl⟩ := List.append_of_mem hentry
  refine List.lookup_eq_some_iff.mpr ⟨before, after, rfl, fun other hother => ?_⟩
  rw [List.map_append, List.nodup_append] at hnodup
  simpa using (hnodup.2.2 other.1 (List.mem_map_of_mem hother) entry.1 (by simp)).symm

/-- An exception raised while a value is read. -/
inductive JsonError
  /-- `pqrs::json::unmarshal_error`. -/
  | unmarshalError (message : String)
  /-- An exception of `nlohmann::json` or of the standard library. -/
  | exception
deriving DecidableEq, Repr

/-- What a reader returns. -/
abbrev JsonM := Except JsonError

@[simp] theorem JsonM.pure_eq_ok {α : Type} (value : α) : (pure value : JsonM α) = .ok value := rfl

@[simp] theorem JsonM.ok_bind {α β : Type} (value : α) (next : α → JsonM β) :
    (Except.ok value : JsonM α) >>= next = next value := rfl

theorem JsonM.bind_eq_ok {α β : Type} {x : JsonM α} {next : α → JsonM β} {value : β} :
    x >>= next = .ok value ↔ ∃ a, x = .ok a ∧ next a = .ok value := by
  cases x with
  | ok a => simp
  | error e => simp [bind, Except.bind]

theorem JsonM.bind_pure_eq_ok {α β : Type} {x : JsonM α} {f : α → β} {value : β} :
    (x >>= fun a => pure (f a)) = .ok value ↔ ∃ a, x = .ok a ∧ f a = value := by
  simp [JsonM.bind_eq_ok]

namespace JsonUtility

/-- A text between the quotation marks of error messages. -/
def quote (text : String) : String := "`" ++ text ++ "`"

/-- As many of the characters as fit into `length` bytes. -/
def takeBytes : ℕ → List Char → List Char
  | _, [] => []
  | length, c :: cs =>
    if c.utf8Size ≤ length then c :: takeBytes (length - c.utf8Size) cs else []

/-- `pqrs::string::truncate`. -/
def truncate (text : String) (length : ℕ) : String :=
  if text.utf8ByteSize ≤ length then text
  else String.ofList (takeBytes (length - 3) text.toList) ++ "..."

section

variable [NlohmannJson]

/-- `pqrs::json::dump_for_error_message`. -/
def dumpForErrorMessage (json : Json) : String := truncate (NlohmannJson.dump json) 256

/-- The error of the `requires` functions. -/
def mustBe (name kind : String) (json : Json) : JsonError :=
  .unmarshalError (name ++ " must be " ++ kind ++ ", but is " ++ quote (dumpForErrorMessage json))

/-- The error of the readers that know all their keys. -/
def unknownKey (key : String) : JsonError := .unmarshalError ("unknown key: " ++ quote key)

/-- `requires_object`, with the members. -/
def requiresObject (json : Json) (name : String) : JsonM Json.Members :=
  match json with
  | .object members => .ok members
  | _ => .error (mustBe name "object" json)

/-- `requires_array`, with the elements. -/
def requiresArray (json : Json) (name : String) : JsonM (List Json) :=
  match json with
  | .array elements => .ok elements
  | _ => .error (mustBe name "array" json)

/-- `requires_boolean`, with the value. -/
def requiresBoolean (json : Json) (name : String) : JsonM Bool :=
  match json with
  | .boolean value => .ok value
  | _ => .error (mustBe name "boolean" json)

/-- `requires_string`, with the value. -/
def requiresString (json : Json) (name : String) : JsonM String :=
  match json with
  | .string value => .ok value
  | _ => .error (mustBe name "string" json)

/-- `requires_number`, with the value a conversion gives. -/
def requiresNumber {α : Type} (get : Json → Option α) (json : Json) (name : String) : JsonM α :=
  match get json with
  | some value => .ok value
  | none => .error (mustBe name "number" json)

omit [NlohmannJson] in
/-- Elements that are read back one by one are read back as an array. -/
theorem mapM_read {α : Type} {write : α → Json} {read : Json → JsonM α} {values : List α}
    (h : ∀ value ∈ values, read (write value) = .ok value) :
    (values.map write).mapM read = .ok values := by
  induction values with
  | nil => rfl
  | cons value values ih =>
      have hrest := ih fun v hmem => h v (List.mem_cons_of_mem value hmem)
      simp [List.mapM_cons, h value List.mem_cons_self, hrest]

omit [NlohmannJson] in
/-- An array is read element by element. -/
theorem mapM_eq_ok_iff {α β : Type} {read : α → JsonM β} {elements : List α} {values : List β} :
    elements.mapM read = .ok values ↔
      List.Forall₂ (fun element value => read element = .ok value) elements values := by
  induction elements generalizing values with
  | nil => simp [eq_comm]
  | cons element elements ih =>
      rw [List.mapM_cons, JsonM.bind_eq_ok, List.forall₂_cons_left_iff]
      constructor
      · rintro ⟨value, hvalue, h⟩
        obtain ⟨rest, hrest, h⟩ := JsonM.bind_eq_ok.mp h
        exact ⟨value, rest, hvalue, ih.mp hrest, (Except.ok.inj h).symm⟩
      · rintro ⟨value, rest, hvalue, hrest, rfl⟩
        exact ⟨value, hvalue, by rw [ih.mpr hrest]; rfl⟩

omit [NlohmannJson] in
/-- Elements that can all be read. -/
theorem exists_mapM_of_forall {α β : Type} {read : α → JsonM β} {elements : List α}
    (h : ∀ element ∈ elements, ∃ value, read element = .ok value) :
    ∃ values, elements.mapM read = .ok values := by
  induction elements with
  | nil => exact ⟨[], rfl⟩
  | cons element elements ih =>
      obtain ⟨⟨value, hvalue⟩, hrest⟩ := List.forall_mem_cons.mp h
      obtain ⟨values, hvalues⟩ := ih hrest
      exact ⟨value :: values, by simp [List.mapM_cons, hvalue, hvalues]⟩

omit [NlohmannJson] in
/-- Every value that was read is that of an element. -/
theorem exists_of_mem_mapM {α β : Type} {read : α → JsonM β} {elements : List α} {values : List β}
    (h : elements.mapM read = .ok values) {value : β} (hvalue : value ∈ values) :
    ∃ element ∈ elements, read element = .ok value := by
  obtain ⟨i, hi, rfl⟩ := List.getElem_of_mem hvalue
  have hread := mapM_eq_ok_iff.mp h
  have hlength : i < elements.length := hread.length_eq ▸ hi
  exact ⟨elements[i], List.getElem_mem hlength, hread.get hlength hi⟩

omit [NlohmannJson] in
/-- Elements that one reader reads are read by another that reads each of them. -/
theorem exists_mapM {α β : Type} {read read' : α → JsonM β} {elements : List α} {values : List β}
    (h : elements.mapM read = .ok values)
    (hread : ∀ element value, read element = .ok value → ∃ value', read' element = .ok value') :
    ∃ values', elements.mapM read' = .ok values' ∧ values'.length = values.length := by
  have hvalues := mapM_eq_ok_iff.mp h
  obtain ⟨values', hvalues'⟩ : ∃ values', elements.mapM read' = .ok values' := by
    refine exists_mapM_of_forall fun element helement => ?_
    obtain ⟨i, hi, rfl⟩ := List.getElem_of_mem helement
    exact hread _ _ (hvalues.get hi (hvalues.length_eq ▸ hi))
  exact ⟨values', hvalues', (mapM_eq_ok_iff.mp hvalues').length_eq ▸ hvalues.length_eq⟩

/-- The loop of the readers of objects, over the members in the order of their keys. -/
def readMembers {α : Type} (read : α → String → Json → JsonM α) (value : α)
    (members : Json.Members) : JsonM α :=
  members.foldlM (fun value m => read value m.1 m.2) value

/-- A reader of objects. -/
def readObject {α : Type} (read : α → String → Json → JsonM α) (value : α) (json : Json) :
    JsonM α := do
  readMembers read value (← requiresObject json "json")

theorem requiresObject_eq_ok {json : Json} {name : String} {members : Json.Members} :
    requiresObject json name = .ok members ↔ json = .object members := by
  cases json <;> simp [requiresObject]

@[simp] theorem requiresNumber_eq_ok {α : Type} {get : Json → Option α} {json : Json}
    {name : String} {value : α} :
    requiresNumber get json name = .ok value ↔ get json = some value := by
  unfold requiresNumber
  cases get json <;> simp

@[simp] theorem readObject_object {α : Type} (read : α → String → Json → JsonM α) (value : α)
    (members : Json.Members) :
    readObject read value (.object members) = readMembers read value members := rfl

end

section

variable {α : Type} (read : α → String → Json → JsonM α) (value : α)

@[simp] theorem readMembers_nil : readMembers read value [] = .ok value := rfl

@[simp] theorem readMembers_cons (key : String) (json : Json) (members : Json.Members) :
    readMembers read value ((key, json) :: members) =
      read value key json >>= fun value => readMembers read value members := rfl

@[simp] theorem readMembers_append (members members' : Json.Members) :
    readMembers read value (members ++ members') =
      readMembers read value members >>= fun value => readMembers read value members' :=
  List.foldlM_append

end

/-- What holds of the initial value and is kept by every member holds of what an object is read
to.  The predicate sees the members that were read so far. -/
theorem readMembers_invariant {α : Type} {read : α → String → Json → JsonM α} {init value : α}
    {members : Json.Members} {P : Json.Members → α → Prop} (hinit : P [] init)
    (hstep : ∀ members value key json value', P members value →
      read value key json = .ok value' → P (members ++ [(key, json)]) value')
    (h : readMembers read init members = .ok value) : P members value := by
  induction members using List.reverseRecOn generalizing value with
  | nil => exact Except.ok.inj h ▸ hinit
  | append_singleton members member ih =>
      obtain ⟨key, json⟩ := member
      rw [readMembers_append] at h
      obtain ⟨value₁, hvalue₁, h⟩ := JsonM.bind_eq_ok.mp h
      obtain ⟨value₂, hread, rfl⟩ := JsonM.bind_pure_eq_ok.mp h
      exact hstep members value₁ key json value₂ (ih hvalue₁) hread

/-- A field that only the member `key` sets is read from that member, if there is one. -/
theorem readMembers_field {α β : Type} {read : α → String → Json → JsonM α} {field : α → β}
    {key : String} {get : Json → JsonM β}
    (hother : ∀ value k json value', k ≠ key → read value k json = .ok value' →
      field value' = field value)
    (hkey : ∀ value json value', read value key json = .ok value' → get json = .ok (field value'))
    {init value : α} {members : Json.Members} (hnodup : (members.map Prod.fst).Nodup)
    (h : readMembers read init members = .ok value) :
    match members.lookup key with
    | some json => get json = .ok (field value)
    | none => field value = field init := by
  induction members generalizing init with
  | nil => exact congrArg field (Except.ok.inj h).symm
  | cons m members ih =>
      obtain ⟨k, json⟩ := m
      obtain ⟨hfresh, hnodup⟩ := List.nodup_cons.mp hnodup
      obtain ⟨value₁, hread, h⟩ := JsonM.bind_eq_ok.mp h
      have hrest := ih hnodup h
      by_cases hk : k = key
      · subst hk
        have hnone : members.lookup k = none := by
          rw [List.lookup_eq_none_iff]
          intro m hm
          have hne : k ≠ m.1 := fun heq => hfresh (heq ▸ List.mem_map.mpr ⟨m, hm, rfl⟩)
          simpa using hne
        rw [hnone] at hrest
        rw [List.lookup_cons, beq_self_eq_true]
        dsimp only at hrest ⊢
        rw [hrest]
        exact hkey _ _ _ hread
      · have hbeq : (key == k) = false := beq_eq_false_iff_ne.mpr (Ne.symm hk)
        rw [List.lookup_cons, hbeq]
        dsimp only
        split at hrest
        · next json' hlookup => rw [hlookup]; exact hrest
        · next hlookup =>
            rw [hlookup]
            exact hrest.trans (hother _ _ _ _ hk hread)

/-- The member of a field that is written only if it has a value. -/
def optionalMember {β : Type} (key : String) (write : β → Json) (value : Option β) :
    Json.Members :=
  (value.map fun v => (key, write v)).toList

/-- Reading an optional field sets it, if it was not set before. -/
theorem readMembers_optionalMember {α β : Type} {read : α → String → Json → JsonM α} {key : String}
    {write : β → Json} {value : Option β} {init : α} (set : α → Option β → α)
    (hread : ∀ v, value = some v → read init key (write v) = .ok (set init (some v)))
    (hnone : set init none = init) :
    readMembers read init (optionalMember key write value) = .ok (set init value) := by
  cases value with
  | none => simp [optionalMember, hnone]
  | some v => simp [optionalMember, hread v rfl]

/-- Raise an `unmarshal_error` again, with a field path. -/
def atPath {α : Type} (path : String) : JsonM α → JsonM α
  | .error (.unmarshalError message) => .error (.unmarshalError (path ++ " error: " ++ message))
  | result => result

@[simp] theorem atPath_ok {α : Type} (path : String) (value : α) :
    atPath path (.ok value) = .ok value := rfl

theorem atPath_eq_ok {α : Type} {path : String} {x : JsonM α} {value : α} :
    atPath path x = .ok value ↔ x = .ok value := by
  match x with
  | .ok _ => rfl
  | .error (.unmarshalError _) => simp [atPath]
  | .error .exception => simp [atPath]

/-! ### Strings with several lines -/

/-- The lines that `std::getline` reads. -/
def lines : List Char → List (List Char)
  | [] => []
  | c :: cs =>
    if c = '\n' then [] :: lines cs
    else
      match lines cs with
      | [] => [[c]]
      | line :: rest => (c :: line) :: rest

/-- `marshal_string`. -/
def marshalString (value : String) : Json :=
  if '\n' ∈ value.toList then
    .array ((lines value.toList).map fun line => .string (String.ofList line))
  else .string value

/-- The strings of an array, if it holds only strings. -/
def strings : List Json → Option (List String)
  | [] => some []
  | .string s :: elements => (strings elements).map (s :: ·)
  | _ :: _ => none

/-- `unmarshal_string`. -/
def unmarshalString [NlohmannJson] (key : String) (value : Json) : JsonM String :=
  let error := .unmarshalError
    (quote key ++ " must be array of string, or string, but is " ++ quote (NlohmannJson.dump value))
  match value with
  | .string s => .ok s
  | .array elements =>
    match strings elements with
    | some ss => .ok (String.ofList (ss.flatMap fun s => s.toList ++ ['\n']).dropLast)
    | none => .error error
  | _ => .error error

theorem lines_ne_nil (c : Char) (cs : List Char) : lines (c :: cs) ≠ [] := by
  unfold lines
  split_ifs
  · simp
  · split <;> simp

/-- The lines, each with its newline. -/
def unlines (ls : List (List Char)) : List Char := ls.flatMap (· ++ ['\n'])

theorem unlines_lines_cons_cons (c d : Char) (cs : List Char) :
    unlines (lines (c :: d :: cs)) = c :: unlines (lines (d :: cs)) := by
  rw [lines]
  split_ifs with hc
  · simp [unlines, hc]
  · cases h : lines (d :: cs) with
    | nil => exact absurd h (lines_ne_nil d cs)
    | cons line rest => simp [unlines]

/-- Reading the lines of a text and joining them ends the text with a newline. -/
theorem unlines_lines (c : Char) (cs : List Char) :
    unlines (lines (c :: cs)) =
      if (c :: cs).getLast? = some '\n' then c :: cs else c :: cs ++ ['\n'] := by
  induction cs generalizing c with
  | nil =>
      by_cases hc : c = '\n'
      · simp [lines, unlines, hc]
      · simp [lines, unlines, hc]
  | cons d cs ih =>
      rw [unlines_lines_cons_cons, ih, List.getLast?_cons_cons]
      split_ifs <;> rfl

@[simp] theorem strings_map_string (ss : List String) :
    strings (ss.map Json.string) = some ss := by
  induction ss with
  | nil => rfl
  | cons s ss ih => simp [strings, ih]

/-- What is read back: the last newline of a string is lost. -/
theorem unmarshalString_marshalString_eq [NlohmannJson] (key value : String) :
    unmarshalString key (marshalString value) =
      .ok (if value.toList.getLast? = some '\n' then String.ofList value.toList.dropLast
        else value) := by
  by_cases hnewline : '\n' ∈ value.toList
  · have hstrings : strings ((lines value.toList).map fun line => .string (String.ofList line)) =
        some ((lines value.toList).map String.ofList) := by
      rw [← strings_map_string, List.map_map]
      rfl
    have hjoin : ((lines value.toList).map String.ofList).flatMap (fun s => s.toList ++ ['\n']) =
        unlines (lines value.toList) := by
      simp [unlines, List.flatMap_map]
    have hread : unmarshalString key (marshalString value) =
        .ok (String.ofList (unlines (lines value.toList)).dropLast) := by
      simp only [marshalString, if_pos hnewline, unmarshalString, hstrings, hjoin]
    rw [hread]
    cases hchars : value.toList with
    | nil => simp [hchars] at hnewline
    | cons c cs =>
        rw [unlines_lines]
        split_ifs with hlast
        · rfl
        · rw [List.dropLast_concat, ← hchars, String.ofList_toList]
  · have hlast : value.toList.getLast? ≠ some '\n' := fun h =>
      hnewline (List.mem_of_getLast? h)
    rw [if_neg hlast, marshalString, if_neg hnewline, unmarshalString]

/-- **A string survives** being written and read back unless it ends with a newline. -/
theorem unmarshalString_marshalString [NlohmannJson] (key value : String) :
    unmarshalString key (marshalString value) = .ok value ↔
      value.toList.getLast? ≠ some '\n' := by
  rw [unmarshalString_marshalString_eq]
  split_ifs with hlast
  · refine iff_of_false (fun h => ?_) (not_not.mpr hlast)
    have hlength := congrArg (fun s => s.toList.length) (Except.ok.inj h)
    have hne : value.toList ≠ [] := by
      rintro hnil
      simp [hnil] at hlast
    have hpos := List.length_pos_of_ne_nil hne
    simp only [String.toList_ofList, List.length_dropLast] at hlength
    omega
  · simp [hlast]

end JsonUtility

end Karabiner
