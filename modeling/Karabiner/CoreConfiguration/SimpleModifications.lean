import Karabiner.CoreConfiguration.ConfigurationJsonHelper
import Karabiner.Library.StdSort
import Mathlib.Data.String.Basic

/-!
# Simple modifications

`share/core_configuration/details/profile/simple_modifications.hpp`: pairs of texts, each the `dump`
of a JSON value.  `update` reads three formats and overrides the pairs with the same `from`;
`to_json` writes the first pair of each `from`, leaves out what cannot be used and, of the function
keys, what is the default.

* `error_update_toJson` — what is written can always be read.
* `Unsaved`, `toJson_isEmpty_iff` — which modifications write nothing.
-/

namespace Karabiner.CoreConfiguration

open JsonUtility

/-- The vendored `SI::natural`, which compares texts with numbers in them, and a `std::sort` of
pairs by their first texts.  It promises nothing about the order of pairs with the same first text.
-/
class NaturalSort where
  compare : String → String → Bool
  stdSort : StdSort fun a b : String × String => compare a.1 b.1

namespace NaturalSort

/-- Shorter texts come first. -/
@[reducible] def byLength : NaturalSort where
  compare a b := a.length < b.length || (a.length == b.length && a < b)
  stdSort := .ofKey (fun pair => toLex (pair.1.length, pair.1)) fun a b => by
    simp [Prod.Lex.toLex_lt_toLex]

/-- No text is less than another. -/
@[reducible] def unordered : NaturalSort where
  compare _ _ := false
  stdSort :=
    { sort := id
      perm := List.Perm.refl
      sorted := fun _ => List.pairwise_of_forall fun _ _ => rfl }

end NaturalSort

/-- `simple_modifications`. -/
structure SimpleModifications where
  pairs : List (String × String) := []

namespace SimpleModifications

section

variable [NlohmannJson]

/-! ### Writing -/

/-- A pair that can be used: `from` is an object and `to` an array, and neither is empty. -/
def usablePair (pair : String × String) : Option (Json × Json) :=
  match NlohmannJson.parse pair.1, NlohmannJson.parse pair.2 with
  | some (.object fromMembers), some (.array toElements) =>
    if fromMembers.isEmpty || toElements.isEmpty then none
    else some (.object fromMembers, .array toElements)
  | _, _ => none

/-- The first usable pair of every `from` that is not one of `froms`. -/
def firstPairs (froms : List String) : List (String × String) → List (Json × Json)
  | [] => []
  | pair :: pairs =>
    match usablePair pair with
    | none => firstPairs froms pairs
    | some usable =>
      if pair.1 ∈ froms then firstPairs froms pairs
      else usable :: firstPairs (pair.1 :: froms) pairs

omit [NlohmannJson] in
/-- The value of a member of a default. -/
def defaultMember (key : String) (json : Json) : Json :=
  match json with
  | .object members => (members.lookup key).getD .null
  | _ => .null

omit [NlohmannJson] in
/-- The pair is one of the defaults. -/
def isDefault (defaultJson : List Json) (pair : Json × Json) : Bool :=
  defaultJson.any fun json =>
    pair.1 == defaultMember "from" json && pair.2 == defaultMember "to" json

omit [NlohmannJson] in
/-- The element of a pair. -/
def pairJson (pair : Json × Json) : Json := .object [("from", pair.1), ("to", pair.2)]

/-- `to_json`. -/
def toJson (defaultJson : List Json) (m : SimpleModifications) : Json :=
  .array (((firstPairs [] m.pairs).filter fun pair => !isDefault defaultJson pair).map pairJson)

/-! ### Reading -/

omit [NlohmannJson] in
/-- `migrate_to_json`. -/
def migrateToJson (toJson : Json) : Json :=
  match toJson with
  | .object members =>
    let result := Json.erase "" members
    if result.isEmpty then .array [] else .array [.object result]
  | _ => toJson

/-- `erase_by_from_json_string`. -/
def eraseByFromJsonString (fromText : String) (pairs : List (String × String)) :
    List (String × String) :=
  match NlohmannJson.parse fromText with
  | some json => pairs.filter fun pair => pair.1 ≠ NlohmannJson.dump json
  | none => pairs

/-- Override the pairs with the same `from`. -/
def addPair (pair : String × String) (pairs : List (String × String)) : List (String × String) :=
  eraseByFromJsonString pair.1 pairs ++ [pair]

/-- The text of a `from`.  A member cannot be removed from a value that is not an object. -/
def fromText (json : Json) : JsonM String :=
  match json with
  | .object members => .ok (NlohmannJson.dump (.object (Json.erase "" members)))
  | _ => .error .exception

/-- The pair of an element of the v2 and v3 formats.  Other keys are ignored. -/
def readPair (members : Json.Members) : JsonM (Option (String × String)) := do
  let fromText? ← (members.lookup "from").mapM fromText
  let toText? := (members.lookup "to").map fun json => NlohmannJson.dump (migrateToJson json)
  match fromText?, toText? with
  | some fromText, some toText => return some (fromText, toText)
  | _, _ => return none

/-- The v2 and v3 formats. -/
def readArray (pairs : List (String × String)) : List Json → Update (List (String × String))
  | [] => { value := pairs }
  | .object members :: elements =>
    match readPair members with
    | .ok (some pair) => readArray (addPair pair pairs) elements
    | .ok none => readArray pairs elements
    | .error error => { value := pairs, error := some error }
  | _ :: elements => readArray pairs elements

/-- The v1 format. -/
def readObject (pairs : List (String × String)) (members : Json.Members) :
    List (String × String) :=
  members.foldl (fun pairs m =>
    match m.2 with
    | .string _ =>
      let fromText :=
        if m.1.isEmpty then "\x7b\x7d" else NlohmannJson.dump (.object [("key_code", .string m.1)])
      let toText :=
        if m.2.isEmpty then "\x7b\x7d" else NlohmannJson.dump (.array [.object [("key_code", m.2)]])
      addPair (fromText, toText) pairs
    | _ => pairs) pairs

variable [NaturalSort]

omit [NlohmannJson] in
/-- The `std::sort` of the pairs. -/
def sort (pairs : List (String × String)) : List (String × String) :=
  NaturalSort.stdSort.sort pairs

omit [NlohmannJson] in
theorem sort_perm (pairs : List (String × String)) : (sort pairs).Perm pairs :=
  NaturalSort.stdSort.perm pairs

/-- `update`, which is `handle_json`. -/
def update (json : Json) (m : SimpleModifications) : Update SimpleModifications :=
  match json with
  | .array elements =>
    match readArray m.pairs elements with
    | { value := pairs, error := none } => { value := { pairs := sort pairs } }
    | { value := pairs, error := some error } => { value := { pairs := pairs }, error := error }
  | .object members => { value := { pairs := sort (readObject m.pairs members) } }
  | _ =>
    { value := m
      error := some (.unmarshalError
        ("json must be array or object, but is " ++ quote (dumpForErrorMessage json))) }

/-! ### Editing -/

/-- `push_back_pair`. -/
def pushBackPair (m : SimpleModifications) : SimpleModifications where
  pairs := m.pairs ++ [(NlohmannJson.dump (.object []), NlohmannJson.dump (.array []))]

omit [NlohmannJson] [NaturalSort] in
/-- `erase_pair`. -/
def erasePair (index : ℕ) (m : SimpleModifications) : SimpleModifications where
  pairs := m.pairs.eraseIdx index

/-- The texts of a new pair, if both are JSON. -/
def newPair (fromText toText : String) : Option (String × String) := do
  let fromJson ← NlohmannJson.parse fromText
  let toJson ← NlohmannJson.parse toText
  return (NlohmannJson.dump fromJson, NlohmannJson.dump (migrateToJson toJson))

/-- `replace_pair`. -/
def replacePair (index : ℕ) (fromText toText : String) (m : SimpleModifications) :
    SimpleModifications :=
  match newPair fromText toText with
  | some pair => { pairs := m.pairs.set index pair }
  | none => m

/-- `replace_second`: only the first pair with this `from`. -/
def replaceSecond (fromText toText : String) (m : SimpleModifications) : SimpleModifications :=
  match newPair fromText toText with
  | some pair =>
    { pairs := m.pairs.set (m.pairs.findIdx fun p => p.1 == pair.1) pair }
  | none => m

end

/-- A call that changes the modifications. -/
inductive Edit
  | update (json : Json)
  | pushBackPair
  | erasePair (index : ℕ)
  | replacePair (index : ℕ) (fromText toText : String)
  | replaceSecond (fromText toText : String)

section

variable [NlohmannJson]

/-- The effect of a call.  What `update` did before an exception remains. -/
def Edit.apply [NaturalSort] (m : SimpleModifications) : Edit → SimpleModifications
  | update json => (m.update json).value
  | pushBackPair => m.pushBackPair
  | erasePair index => m.erasePair index
  | replacePair index fromText toText => m.replacePair index fromText toText
  | replaceSecond fromText toText => m.replaceSecond fromText toText

/-! ### What is written can be read -/

theorem usablePair_eq_some {pair : String × String} {usable : Json × Json}
    (h : usablePair pair = some usable) : ∃ members, usable.1 = .object members := by
  unfold usablePair at h
  split at h
  · split_ifs at h
    cases h
    exact ⟨_, rfl⟩
  · cases h

theorem exists_of_mem_firstPairs {froms : List String} {pairs : List (String × String)}
    {usable : Json × Json} (h : usable ∈ firstPairs froms pairs) :
    ∃ pair ∈ pairs, usablePair pair = some usable := by
  induction pairs generalizing froms with
  | nil => cases h
  | cons pair pairs ih =>
      have hrest {froms : List String} (h : usable ∈ firstPairs froms pairs) :
          ∃ p ∈ pair :: pairs, usablePair p = some usable := by
        obtain ⟨p, hp, hp'⟩ := ih h
        exact ⟨p, List.mem_cons_of_mem _ hp, hp'⟩
      unfold firstPairs at h
      split at h
      · exact hrest h
      · next hpair =>
          split_ifs at h
          · exact hrest h
          · rcases List.mem_cons.mp h with rfl | h
            · exact ⟨pair, List.mem_cons_self, hpair⟩
            · exact hrest h

/-- Elements with a `from` that is an object are read without an exception. -/
theorem error_readArray {elements : List (Json × Json)}
    (h : ∀ pair ∈ elements, ∃ members, pair.1 = .object members)
    (pairs : List (String × String)) :
    (readArray pairs (elements.map pairJson)).error = none := by
  induction elements generalizing pairs with
  | nil => rfl
  | cons pair elements ih =>
      obtain ⟨members, hmembers⟩ := h pair List.mem_cons_self
      obtain ⟨added, hread⟩ : ∃ added,
          readPair [("from", pair.1), ("to", pair.2)] = .ok (some added) := by
        rw [hmembers]
        exact ⟨_, rfl⟩
      simp only [List.map_cons, pairJson, readArray, hread]
      exact ih (fun pair hpair => h pair (List.mem_cons_of_mem _ hpair)) _

theorem error_update_array [NaturalSort] {elements : List (Json × Json)}
    (h : ∀ pair ∈ elements, ∃ members, pair.1 = .object members) (m : SimpleModifications) :
    (m.update (.array (elements.map pairJson))).error = none := by
  have hread := error_readArray h m.pairs
  simp only [update]
  split
  · rfl
  · next heq => simp [heq] at hread

/-- **What is written can be read**, over any modifications. -/
theorem error_update_toJson [NaturalSort] (defaultJson : List Json)
    (m other : SimpleModifications) :
    (other.update (m.toJson defaultJson)).error = none := by
  refine error_update_array (fun pair hpair => ?_) other
  obtain ⟨_, _, husable⟩ := exists_of_mem_firstPairs (List.mem_filter.mp hpair).1
  exact usablePair_eq_some husable

/-- The modifications that write nothing: every pair that counts is one of the defaults. -/
def Unsaved (defaultJson : List Json) (m : SimpleModifications) : Prop :=
  ∀ pair ∈ firstPairs [] m.pairs, isDefault defaultJson pair

theorem toJson_isEmpty_iff {defaultJson : List Json} {m : SimpleModifications} :
    (m.toJson defaultJson).isEmpty ↔ m.Unsaved defaultJson := by
  simp [toJson, Json.isEmpty, Unsaved, List.filter_eq_nil_iff]

/-! ### The defaults write nothing -/

theorem exists_of_mem_readArray {elements : List (Json × Json)} {pairs : List (String × String)}
    {pair : String × String} (h : pair ∈ (readArray pairs (elements.map pairJson)).value) :
    pair ∈ pairs ∨ ∃ element ∈ elements,
      readPair [("from", element.1), ("to", element.2)] = .ok (some pair) := by
  induction elements generalizing pairs with
  | nil => exact .inl h
  | cons element elements ih =>
      have hrest {pairs : List (String × String)}
          (h : pair ∈ (readArray pairs (elements.map pairJson)).value) :
          pair ∈ pairs ∨ ∃ e ∈ element :: elements,
            readPair [("from", e.1), ("to", e.2)] = .ok (some pair) :=
        (ih h).imp_right fun ⟨e, he, hread⟩ => ⟨e, List.mem_cons_of_mem _ he, hread⟩
      simp only [List.map_cons, pairJson, readArray] at h
      split at h
      · next added hread =>
          rcases hrest h with hmem | hmem
          · unfold addPair eraseByFromJsonString at hmem
            rcases List.mem_append.mp hmem with hmem | hmem
            · split at hmem
              · exact .inl (List.mem_filter.mp hmem).1
              · exact .inl hmem
            · obtain rfl := List.mem_singleton.mp hmem
              exact .inr ⟨element, List.mem_cons_self, hread⟩
          · exact .inr hmem
      · exact hrest h
      · exact .inl h

/-- **Modifications made from their defaults write nothing**, if the texts of the defaults are
those that they are parsed from. -/
theorem unsaved_update [NaturalSort] {elements : List (Json × Json)}
    (hfrom : ∀ pair ∈ elements, ∃ members, pair.1 = .object members ∧ "" ∉ members.map Prod.fst)
    (hto : ∀ pair ∈ elements, ∃ toElements, pair.2 = .array toElements)
    (hparse : ∀ pair ∈ elements, NlohmannJson.parse (NlohmannJson.dump pair.1) = some pair.1 ∧
      NlohmannJson.parse (NlohmannJson.dump pair.2) = some pair.2) :
    (update (.array (elements.map pairJson)) {}).value.Unsaved (elements.map pairJson) := by
  intro usable husable
  obtain ⟨pair, hpair, husable⟩ := exists_of_mem_firstPairs husable
  have hread : pair ∈ (readArray [] (elements.map pairJson)).value := by
    have herror := error_readArray
      (fun pair hpair => (hfrom pair hpair).imp fun _ h => h.1) ([] : List (String × String))
    simp only [update] at hpair
    split at hpair
    · next heq =>
        rw [heq]
        exact (sort_perm _).mem_iff.mp hpair
    · next heq => simp [heq] at herror
  obtain ⟨element, helement, hpair⟩ := (exists_of_mem_readArray hread).resolve_left
    (List.not_mem_nil)
  obtain ⟨members, hmembers, hempty⟩ := hfrom element helement
  obtain ⟨toElements, htoElements⟩ := hto element helement
  have herase : Json.erase "" members = members := by
    refine List.filter_eq_self.mpr fun m hm => decide_eq_true ?_
    rintro heq
    exact hempty (heq ▸ List.mem_map_of_mem hm)
  have hwritten : readPair [("from", element.1), ("to", element.2)] =
      .ok (some (NlohmannJson.dump element.1, NlohmannJson.dump element.2)) := by
    rw [hmembers, htoElements]
    exact congrArg (fun m => Except.ok (some (NlohmannJson.dump (.object m), _))) herase
  obtain rfl := Option.some.inj (Except.ok.inj (hpair.symm.trans hwritten))
  have husable' : usable = element := by
    obtain ⟨hfromText, htoText⟩ := hparse element helement
    rw [hmembers] at hfromText
    rw [htoElements] at htoText
    simp only [usablePair, hmembers, htoElements, hfromText, htoText] at husable
    split_ifs at husable
    rw [← Option.some.inj husable, ← hmembers, ← htoElements]
  rw [husable', isDefault, List.any_eq_true]
  refine ⟨pairJson element, List.mem_map_of_mem helement, ?_⟩
  exact Bool.and_eq_true_iff.mpr ⟨Json.beq_self element.1, Json.beq_self element.2⟩

end

end SimpleModifications

end Karabiner.CoreConfiguration
