import Karabiner.CoreConfiguration.SimpleModifications.Mapping

/-!
# Simple modifications that are edited, saved and loaded

The pairs are texts of values that the vendored library reads back, whatever is done to them.  Only
`replace_pair` leaves an empty key in a `from`, where `update` removes it.

* `canonical_edits` — the pairs that any calls leave.
* `mapping_save_load` — **the mapping survives saving and loading**, over no defaults, over those of
  a profile and over those of a device.
-/

namespace Karabiner.CoreConfiguration.SimpleModifications

variable [NlohmannJson]

/-! ### What is written by the calls -/

omit [NlohmannJson] in
/-- What `update` writes for an element of the v2 and v3 formats. -/
def dumpedElement : Json → List Json
  | .object members =>
    (match members.lookup "from" with
      | some (.object fromMembers) => [.object (Json.erase "" fromMembers)]
      | _ => []) ++ ((members.lookup "to").map migrateToJson).toList
  | _ => []

omit [NlohmannJson] in
/-- What `update` writes for a member of the v1 format. -/
def dumpedMember (m : String × Json) : List Json :=
  match m.2 with
  | .string _ =>
    [if m.1.isEmpty then .object [] else .object [("key_code", .string m.1)],
      .array [.object [("key_code", m.2)]]]
  | _ => []

/-- The values that a call writes as texts. -/
def Edit.dumped : Edit → List Json
  | update (.array elements) => elements.flatMap dumpedElement
  | update (.object members) => members.flatMap dumpedMember
  | update _ => []
  | pushBackPair => [.object [], .array []]
  | erasePair _ => []
  | replacePair _ fromText toText =>
    (NlohmannJson.parse fromText).toList ++
      ((NlohmannJson.parse toText).map migrateToJson).toList
  | replaceSecond _ toText => ((NlohmannJson.parse toText).map migrateToJson).toList

/-- A `from` that `replace_pair` gets has no empty key. -/
def Edit.KeepsKeys : Edit → Prop
  | replacePair _ fromText _ => ∀ json, NlohmannJson.parse fromText = some json → NoEmptyKey json
  | _ => True

/-! ### What the calls leave -/

/-- The pair of two values that are read back. -/
theorem Canonical.of_readsBack {fromJson toJson : Json} (hfrom : ReadsBack fromJson)
    (hkey : NoEmptyKey fromJson) (hto : ReadsBack toJson) :
    Canonical (NlohmannJson.dump fromJson, NlohmannJson.dump toJson) :=
  ⟨⟨fromJson, hfrom, rfl, hkey⟩, ⟨toJson, hto, rfl⟩⟩

omit [NlohmannJson] in
/-- An object has no empty key once its members of that key are erased. -/
theorem noEmptyKey_erase (members : Json.Members) :
    NoEmptyKey (.object (Json.erase "" members)) := by
  rintro _ ⟨rfl⟩ hmem
  obtain ⟨m, hm, hkey⟩ := List.mem_map.mp hmem
  exact (Json.mem_erase.mp hm).2 hkey

/-- A canonical pair keeps the pairs canonical. -/
theorem canonical_addPair {pair : String × String} (hpair : Canonical pair)
    {pairs : List (String × String)} (h : ∀ p ∈ pairs, Canonical p) :
    ∀ p ∈ addPair pair pairs, Canonical p := by
  intro p hp
  unfold addPair eraseByFromJsonString at hp
  rcases List.mem_append.mp hp with hp | hp
  · split at hp
    · exact h p (List.mem_filter.mp hp).1
    · exact h p hp
  · exact List.mem_singleton.mp hp ▸ hpair

/-- What is read from an element. -/
theorem readPair_eq_some {members : Json.Members} {pair : String × String}
    (h : readPair members = .ok (some pair)) :
    ∃ fromMembers toJson, .object (Json.erase "" fromMembers) ∈ dumpedElement (.object members) ∧
      toJson ∈ dumpedElement (.object members) ∧
      pair =
        (NlohmannJson.dump (.object (Json.erase "" fromMembers)), NlohmannJson.dump toJson) := by
  unfold readPair at h
  cases hfrom : members.lookup "from" with
  | none =>
      rw [hfrom] at h
      cases h
  | some fromJson =>
      rw [hfrom] at h
      cases fromJson with
      | object fromMembers =>
          cases hto : members.lookup "to" with
          | none =>
              rw [hto] at h
              cases h
          | some toJson =>
              rw [hto] at h
              cases h
              refine ⟨fromMembers, migrateToJson toJson, ?_, ?_, rfl⟩
              · simp [dumpedElement, hfrom]
              · simp [dumpedElement, hto]
      | _ => cases h

/-- What an array of pairs reads is canonical. -/
theorem canonical_readArray {elements : List Json}
    (hread : ∀ json ∈ elements.flatMap dumpedElement, ReadsBack json)
    {pairs : List (String × String)} (h : ∀ p ∈ pairs, Canonical p) :
    ∀ p ∈ (readArray pairs elements).value, Canonical p := by
  induction elements generalizing pairs with
  | nil => exact h
  | cons element elements ih =>
      rw [List.flatMap_cons, List.forall_mem_append] at hread
      have ih {pairs : List (String × String)} (h : ∀ p ∈ pairs, Canonical p) := ih hread.2 h
      cases element with
      | object members =>
          unfold readArray
          split
          · next pair hpair =>
              obtain ⟨fromMembers, toJson, hfrom, hto, rfl⟩ := readPair_eq_some hpair
              exact ih (canonical_addPair (.of_readsBack (hread.1 _ hfrom)
                (noEmptyKey_erase fromMembers) (hread.1 _ hto)) h)
          · exact ih h
          · exact h
      | _ => exact ih h

theorem canonical_readObject (hempty : NlohmannJson.dump (.object []) = "\x7b\x7d")
    {members : Json.Members} (hread : ∀ json ∈ members.flatMap dumpedMember, ReadsBack json)
    {pairs : List (String × String)} (h : ∀ p ∈ pairs, Canonical p) :
    ∀ p ∈ readObject pairs members, Canonical p := by
  induction members generalizing pairs with
  | nil => exact h
  | cons m members ih =>
      obtain ⟨key, json⟩ := m
      rw [List.flatMap_cons, List.forall_mem_append] at hread
      have ih {pairs : List (String × String)} (h : ∀ p ∈ pairs, Canonical p) := ih hread.2 h
      cases json with
      | string value =>
          refine ih (canonical_addPair ?_ h)
          have hfrom := hread.1 _ List.mem_cons_self
          have hto := hread.1 _ (List.mem_cons_of_mem _ List.mem_cons_self)
          dsimp only at hfrom
          split_ifs at hfrom with hkey
          · simp only [hkey, if_true, ← hempty]
            exact .of_readsBack hfrom (by simp [NoEmptyKey]) hto
          · simp only [hkey, Bool.false_eq_true, if_false]
            exact .of_readsBack hfrom (by simp [NoEmptyKey]) hto
      | _ => exact ih h

/-- The pair that `replace_pair` and `replace_second` make. -/
theorem newPair_eq_some {fromText toText : String} {pair : String × String}
    (h : newPair fromText toText = some pair) :
    ∃ fromJson toJson, NlohmannJson.parse fromText = some fromJson ∧
      NlohmannJson.parse toText = some toJson ∧
      pair = (NlohmannJson.dump fromJson, NlohmannJson.dump (migrateToJson toJson)) := by
  obtain ⟨fromJson, hfrom, h⟩ := Option.bind_eq_some_iff.mp h
  obtain ⟨toJson, hto, h⟩ := Option.bind_eq_some_iff.mp h
  exact ⟨fromJson, toJson, hfrom, hto, (Option.some.inj h).symm⟩

/-- A replaced pair is one whose texts read back. -/
theorem canonical_replacePair {index : ℕ} {fromText toText : String}
    (hread : ∀ json ∈ (Edit.replacePair index fromText toText).dumped, ReadsBack json)
    (hkeys : (Edit.replacePair index fromText toText).KeepsKeys) {m : SimpleModifications}
    (h : ∀ p ∈ m.pairs, Canonical p) :
    ∀ p ∈ (m.replacePair index fromText toText).pairs, Canonical p := by
  unfold replacePair
  split
  · next pair hpair =>
      obtain ⟨fromJson, toJson, hfrom, hto, rfl⟩ := newPair_eq_some hpair
      intro p hp
      rcases List.mem_or_eq_of_mem_set hp with hp | rfl
      · exact h p hp
      · refine .of_readsBack (hread _ ?_) (hkeys _ hfrom) (hread _ ?_)
        · simp [Edit.dumped, hfrom]
        · simp [Edit.dumped, hto]
  · exact h

/-- Only a pair that is there is replaced, and it keeps its `from`. -/
theorem canonical_replaceSecond {fromText toText : String}
    (hread : ∀ json ∈ (Edit.replaceSecond fromText toText).dumped, ReadsBack json)
    {m : SimpleModifications} (h : ∀ p ∈ m.pairs, Canonical p) :
    ∀ p ∈ (m.replaceSecond fromText toText).pairs, Canonical p := by
  unfold replaceSecond
  split
  · next pair hpair =>
      obtain ⟨fromJson, toJson, -, hto, rfl⟩ := newPair_eq_some hpair
      intro p hp
      by_cases hindex :
          m.pairs.findIdx (fun p => p.1 == NlohmannJson.dump fromJson) < m.pairs.length
      · rcases List.mem_or_eq_of_mem_set hp with hp | rfl
        · exact h p hp
        · obtain ⟨q, hq, hsame⟩ := List.findIdx_lt_length.mp hindex
          refine ⟨?_, ⟨migrateToJson toJson, hread _ ?_, rfl⟩⟩
          · exact beq_iff_eq.mp hsame ▸ (h q hq).exists_from
          · simp [Edit.dumped, hto]
      · rw [List.set_eq_of_length_le (Nat.le_of_not_lt hindex)] at hp
        exact h p hp
  · exact h

variable [NaturalSort]

/-- An update reads canonical pairs. -/
theorem canonical_update (hempty : NlohmannJson.dump (.object []) = "\x7b\x7d") {json : Json}
    (hread : ∀ json' ∈ (Edit.update json).dumped, ReadsBack json') {m : SimpleModifications}
    (h : ∀ p ∈ m.pairs, Canonical p) : ∀ p ∈ (m.update json).value.pairs, Canonical p := by
  have hsort {pairs : List (String × String)} (hpairs : ∀ p ∈ pairs, Canonical p) :
      ∀ p ∈ sort pairs, Canonical p := fun p hp =>
    hpairs p ((sort_perm pairs).mem_iff.mp hp)
  cases json with
  | array elements =>
      have hpairs := canonical_readArray hread h
      unfold update
      dsimp only
      split
      · next heq =>
          rw [heq] at hpairs
          exact hsort hpairs
      · next heq =>
          rw [heq] at hpairs
          exact hpairs
  | object members => exact hsort (canonical_readObject hempty hread h)
  | _ => exact h

/-- What one call leaves. -/
theorem canonical_apply (hempty : NlohmannJson.dump (.object []) = "\x7b\x7d") {edit : Edit}
    (hread : ∀ json ∈ edit.dumped, ReadsBack json) (hkeys : edit.KeepsKeys)
    {m : SimpleModifications} (h : ∀ p ∈ m.pairs, Canonical p) :
    ∀ p ∈ (edit.apply m).pairs, Canonical p := by
  cases edit with
  | update json => exact canonical_update hempty hread h
  | pushBackPair =>
      have hnew : Canonical (NlohmannJson.dump (.object []), NlohmannJson.dump (.array [])) :=
        .of_readsBack (hread _ List.mem_cons_self) (by simp [NoEmptyKey])
          (hread _ (List.mem_cons_of_mem _ List.mem_cons_self))
      exact List.forall_mem_append.mpr ⟨h, List.forall_mem_singleton.mpr hnew⟩
  | erasePair index => exact fun p hp => h p (List.mem_of_mem_eraseIdx hp)
  | replacePair index fromText toText => exact canonical_replacePair hread hkeys h
  | replaceSecond fromText toText => exact canonical_replaceSecond hread h

/-- **What any calls leave**: pairs of texts that are read back, without an empty key. -/
theorem canonical_edits (hempty : NlohmannJson.dump (.object []) = "\x7b\x7d") {edits : List Edit}
    (hread : ∀ edit ∈ edits, ∀ json ∈ edit.dumped, ReadsBack json)
    (hkeys : ∀ edit ∈ edits, edit.KeepsKeys) {m : SimpleModifications}
    (h : ∀ p ∈ m.pairs, Canonical p) :
    ∀ p ∈ (edits.foldl Edit.apply m).pairs, Canonical p := by
  induction edits generalizing m with
  | nil => exact h
  | cons edit edits ih =>
      rw [List.forall_mem_cons] at hread hkeys
      exact ih hread.2 hkeys.2 (canonical_apply hempty hread.1 hkeys.1 h)

/-! ### The default lists -/

omit [NaturalSort] in
/-- A list of defaults, of which each is for one key. -/
theorem isDefaultList_map {κ : Type} {keys : List κ} {name : κ → String} {target : κ → Json}
    (hread : ∀ key ∈ keys, ReadsBack (.object [("key_code", .string (name key))]))
    (hnodup : (keys.map name).Nodup)
    (htarget : ∀ key ∈ keys, ∀ elements : List Json,
      (Json.array elements).beq (target key) = true → .array elements = target key) :
    IsDefaultList
      (keys.map fun key => (.object [("key_code", .string (name key))], target key)) where
  readable := List.forall_mem_map.mpr fun key hkey => ⟨⟨_, rfl, by simp⟩, hread key hkey⟩
  nodup := by
    rw [List.map_map, List.map_map]
    refine List.Nodup.map_on (fun a ha b hb hab => ?_) hnodup.of_map
    have hsame := (hread a ha).symm.trans ((congrArg NlohmannJson.parse hab).trans (hread b hb))
    injection hsame with hsame
    injection hsame with hsame
    have hname : name a = name b := by simpa using hsame
    exact List.inj_on_of_nodup_map hnodup ha hb hname
  compare := by
    refine List.forall_mem_map.mpr fun key hkey e he hfrom hto => ?_
    obtain ⟨elements, helements, -⟩ := he.exists_to
    refine Prod.ext (Json.eq_of_beq_object_string hfrom) ?_
    rw [helements] at hto ⊢
    exact htarget key hkey elements hto

/-- The names of the function keys. -/
def fnFunctionKeyNames : List String := Profile.defaultFnFunctionKeys.map Prod.fst

section Defaults

variable (hnames : ∀ name ∈ fnFunctionKeyNames, ReadsBack (.object [("key_code", .string name)]))

include hnames

omit [NaturalSort] in
/-- The defaults of a profile map every function key once. -/
theorem isDefaultList_profile : IsDefaultList (Profile.defaultFnFunctionKeys.map fun key =>
    (.object [("key_code", .string key.1)], .array [.object [(key.2.1, .string key.2.2)]])) :=
  isDefaultList_map (fun _ hkey => hnames _ (List.mem_map_of_mem hkey)) (by decide) fun _ _ _ h =>
    Json.eq_of_beq_array_singleton (fun _ => Json.eq_of_beq_object_string) h

omit [NaturalSort] in
theorem isDefaultList_device : IsDefaultList ((List.range 12).map fun i =>
    (.object [("key_code", .string ("f" ++ toString (i + 1)))], .object [])) := by
  have hrange : ∀ i ∈ List.range 12, "f" ++ toString (i + 1) ∈ fnFunctionKeyNames := by decide
  refine isDefaultList_map (fun i hi => hnames _ (hrange i hi)) (by decide) fun _ _ _ h => ?_
  simp [Json.beq] at h

end Defaults

omit [NaturalSort] in
theorem isDefaultList_nil : IsDefaultList [] := ⟨by simp, List.nodup_nil, by simp⟩

theorem ofDefaults_nil : ofDefaults [] = {} := by
  unfold ofDefaults
  rw [update.eq_def]
  exact congrArg SimpleModifications.mk (List.perm_nil.mp (sort_perm []))

/-- The defaults of a device are empty, so they map nothing. -/
theorem mapping_deviceDefaults (hnone : ReadsBack (.array []))
    (hnames : ∀ name ∈ fnFunctionKeyNames, ReadsBack (.object [("key_code", .string name)]))
    (fromText : String) :
    mapping (update (.array Device.makeDefaultFnFunctionKeysJson) {}).value fromText = none := by
  have hdefaults := isDefaultList_device hnames
  refine Option.eq_none_iff_forall_ne_some.mpr fun toText h => ?_
  obtain ⟨hmem, hmaps⟩ := (mapping_eq_some_of_nodup (nodup_ofDefaults hdefaults)).mp h
  obtain ⟨d, hd, htext⟩ := List.mem_map.mp ((mem_ofDefaults hdefaults).mp hmem)
  obtain ⟨i, -, rfl⟩ := List.mem_map.mp hd
  have hdump : NlohmannJson.dump (.array []) = toText := congrArg Prod.snd htext
  have hparse : NlohmannJson.parse toText = some (.array []) := hdump ▸ hnone
  unfold maps at hmaps
  rw [hparse] at hmaps
  split at hmaps
  · next heq =>
      injection heq with heq
      injection heq with heq
      simp [← heq] at hmaps
  · cases hmaps

/-! ### The texts of a few values -/

omit [NlohmannJson] [NaturalSort] in
/-- A `from` with an empty key. -/
def keyedText : String := "\x7b\"\":\"\",\"key_code\":\"a\"\x7d"

omit [NlohmannJson] [NaturalSort] in
/-- The values of the default function keys and of a few edits, with their texts. -/
def editTexts : List (String × Json) :=
  Profile.defaultTexts ++ [
    ("\x7b\x7d", .object []),
    ("[]", .array []),
    (keyedText, .object [("", .string ""), ("key_code", .string "a")]),
    (Profile.keyText "key_code" "a", .object [("key_code", .string "a")]),
    ("[" ++ Profile.keyText "key_code" "b" ++ "]", .array [.object [("key_code", .string "b")]])]

omit [NlohmannJson] [NaturalSort] in
/-- The texts of the example are parsed as the values beside them. -/
theorem parse_editTexts {text : String} {json : Json} (h : (text, json) ∈ editTexts) :
    (NlohmannJson.ofTable editTexts).parse text = some json :=
  NlohmannJson.parse_ofTable (by decide) h

omit [NlohmannJson] [NaturalSort] in
theorem readsBack_editTexts {text : String} {json : Json} (h : (text, json) ∈ editTexts) :
    let _ := NlohmannJson.ofTable editTexts
    ReadsBack json := by
  intro _
  have hdump : ∀ entry ∈ editTexts, (NlohmannJson.ofTable editTexts).dump entry.2 = entry.1 := by
    set_option maxRecDepth 10000 in decide
  unfold ReadsBack
  rw [hdump _ h]
  exact parse_editTexts h

omit [NlohmannJson] [NaturalSort] in
/-- The names of the function keys are among the texts. -/
theorem readsBack_fnFunctionKeyNames :
    let _ := NlohmannJson.ofTable editTexts
    ∀ name ∈ fnFunctionKeyNames, ReadsBack (.object [("key_code", .string name)]) := by
  intro _ name hname
  obtain ⟨key, hkey, rfl⟩ := List.mem_map.mp hname
  have hmem : (Profile.keyText "key_code" key.1, .object [("key_code", .string key.1)]) ∈
      Profile.defaultTexts :=
    List.mem_flatMap.mpr ⟨key, hkey, List.mem_cons_self⟩
  exact readsBack_editTexts (List.mem_append_left _ hmem)

omit [NlohmannJson] [NaturalSort] in
/-- A pair is added and replaced. -/
def replaced (fromText toText : String) : List Edit :=
  [.pushBackPair, .replacePair 0 fromText toText]

omit [NlohmannJson] [NaturalSort] in
/-- All that the edits of the example dump reads back. -/
theorem readsBack_replaced {fromText toText : String} {fromJson : Json} {elements : List Json}
    (hfrom : (fromText, fromJson) ∈ editTexts) (hto : (toText, .array elements) ∈ editTexts) :
    let _ := NlohmannJson.ofTable editTexts
    ∀ edit ∈ replaced fromText toText, ∀ json ∈ edit.dumped, ReadsBack json := by
  intro texts
  have hobject : ("\x7b\x7d", .object []) ∈ editTexts := by simp [editTexts]
  have harray : ("[]", .array []) ∈ editTexts := by simp [editTexts]
  have hnew : ∀ json ∈ Edit.pushBackPair.dumped, ReadsBack json := by
    rw [Edit.dumped, List.forall_mem_cons, List.forall_mem_singleton]
    exact ⟨readsBack_editTexts hobject, readsBack_editTexts harray⟩
  have hreplaced : ∀ json ∈ (Edit.replacePair 0 fromText toText).dumped, ReadsBack json := by
    rw [Edit.dumped, parse_editTexts hfrom, parse_editTexts hto, List.forall_mem_append]
    exact ⟨List.forall_mem_singleton.mpr (readsBack_editTexts hfrom),
      List.forall_mem_singleton.mpr (readsBack_editTexts hto)⟩
  exact List.forall_mem_cons.mpr ⟨hnew, List.forall_mem_singleton.mpr hreplaced⟩

omit [NlohmannJson] [NaturalSort] in
/-- No edit of the example has an empty key. -/
theorem keepsKeys_replaced {fromText : String} {fromJson : Json}
    (hfrom : (fromText, fromJson) ∈ editTexts) (hkey : NoEmptyKey fromJson) (toText : String) :
    let _ := NlohmannJson.ofTable editTexts
    ∀ edit ∈ replaced fromText toText, edit.KeepsKeys := by
  intro _
  refine List.forall_mem_cons.mpr ⟨trivial, List.forall_mem_singleton.mpr fun json hparse => ?_⟩
  rw [parse_editTexts hfrom] at hparse
  exact Option.some.inj hparse ▸ hkey

/-! ### Saving and loading -/

/-- **The mapping survives saving and loading**, and every `from` is there once.  Over the defaults
of a profile, a `from` that was not mapped has its default again. -/
theorem mapping_save_load (hempty : NlohmannJson.dump (.object []) = "\x7b\x7d")
    (hnone : ReadsBack (.array []))
    (hnames : ∀ name ∈ fnFunctionKeyNames, ReadsBack (.object [("key_code", .string name)]))
    (edits : List Edit) (hread : ∀ edit ∈ edits, ∀ json ∈ edit.dumped, ReadsBack json)
    (hkeys : ∀ edit ∈ edits, edit.KeepsKeys) :
    let saved := edits.foldl Edit.apply {}
    let loaded := (update (saved.toJson []) {}).value
    let profileDefaults := Profile.makeDefaultFnFunctionKeysJson
    let deviceDefaults := Device.makeDefaultFnFunctionKeysJson
    let ofProfile := (update (.array profileDefaults) {}).value
    let ofDevice := (update (.array deviceDefaults) {}).value
    (∀ fromText, loaded.mapping fromText = saved.mapping fromText) ∧
      (loaded.pairs.map Prod.fst).Nodup ∧
      (∀ fromText, (ofProfile.update (saved.toJson profileDefaults)).value.mapping fromText =
        (saved.mapping fromText).or (ofProfile.mapping fromText)) ∧
      ∀ fromText, (ofDevice.update (saved.toJson deviceDefaults)).value.mapping fromText =
        saved.mapping fromText := by
  intro saved loaded profileDefaults deviceDefaults ofProfile ofDevice
  have hm : ∀ p ∈ saved.pairs, Canonical p := canonical_edits hempty hread hkeys (by simp)
  have hloaded : loaded = saved.reload [] := by
    unfold reload
    rw [ofDefaults_nil]
    rfl
  refine ⟨fun fromText => ?_, ?_, fun fromText => ?_, fun fromText => ?_⟩
  · rw [hloaded, mapping_reload isDefaultList_nil hm, ofDefaults_nil]
    exact Option.or_none
  · rw [hloaded]
    exact nodup_reload isDefaultList_nil hm
  · exact mapping_reload (isDefaultList_profile hnames) hm fromText
  · have hdefault := mapping_deviceDefaults hnone hnames fromText
    exact (mapping_reload (isDefaultList_device hnames) hm fromText).trans
      ((congrArg _ hdefault).trans Option.or_none)

omit [NlohmannJson] [NaturalSort] in
/-- A function key that is left without a `to`. -/
theorem mapping_save_load_emptied :
    let _ := NlohmannJson.ofTable editTexts
    let _ : NaturalSort := .byLength
    let saved := (replaced (Profile.keyText "key_code" "f1") "[]").foldl Edit.apply {}
    let profileDefaults := Profile.makeDefaultFnFunctionKeysJson
    let ofProfile := (update (.array profileDefaults) {}).value
    ∀ fromText, (ofProfile.update (saved.toJson profileDefaults)).value.mapping fromText =
      (saved.mapping fromText).or (ofProfile.mapping fromText) := by
  intro texts naturalSort saved profileDefaults ofProfile
  have harray : ("[]", .array []) ∈ editTexts := by simp [editTexts]
  have hf1 : (Profile.keyText "key_code" "f1", .object [("key_code", .string "f1")]) ∈ editTexts :=
    List.mem_append_left _ List.mem_cons_self
  exact (mapping_save_load (by decide) (readsBack_editTexts harray) readsBack_fnFunctionKeyNames
    (replaced (Profile.keyText "key_code" "f1") "[]") (readsBack_replaced hf1 harray)
    (keepsKeys_replaced hf1 (by simp [NoEmptyKey]) "[]")).2.2.1

omit [NlohmannJson] [NaturalSort] in
/-- A function key that is left without a `to` has its default again, and a `from` that
`replace_pair` gets with an empty key is mapped without it. -/
theorem mapping_save_load_lost :
    let _ := NlohmannJson.ofTable editTexts
    let _ : NaturalSort := .byLength
    let f1 := Profile.keyText "key_code" "f1"
    let a := Profile.keyText "key_code" "a"
    let b := "[" ++ Profile.keyText "key_code" "b" ++ "]"
    let emptied := (replaced f1 "[]").foldl Edit.apply {}
    let keyed := (replaced keyedText b).foldl Edit.apply {}
    let profileDefaults := Profile.makeDefaultFnFunctionKeysJson
    let ofProfile := (update (.array profileDefaults) {}).value
    let loadedEmptied := (ofProfile.update (emptied.toJson profileDefaults)).value
    let loadedKeyed := (update (keyed.toJson []) {}).value
    (f1 ∈ emptied.pairs.map Prod.fst ∧ emptied.mapping f1 = none ∧
        loadedEmptied.mapping f1 =
          some ("[" ++ Profile.keyText "consumer_key_code" "display_brightness_decrement" ++ "]")) ∧
      keyed.mapping a = none ∧ loadedKeyed.mapping a = some b := by
  intro texts naturalSort f1 a b emptied keyed profileDefaults ofProfile loadedEmptied loadedKeyed
  have harray : ("[]", .array []) ∈ editTexts := by simp [editTexts]
  have hf1 : (f1, .object [("key_code", .string "f1")]) ∈ editTexts :=
    List.mem_append_left _ List.mem_cons_self
  have hemptied : ∀ p ∈ emptied.pairs, Canonical p :=
    canonical_edits (by decide) (readsBack_replaced hf1 harray)
      (keepsKeys_replaced hf1 (by simp [NoEmptyKey]) "[]") (by simp)
  have hdefaults := isDefaultList_profile readsBack_fnFunctionKeyNames
  have hdefault : ofProfile.mapping f1 =
      some ("[" ++ Profile.keyText "consumer_key_code" "display_brightness_decrement" ++ "]") := by
    refine (mapping_eq_some_of_nodup (nodup_ofDefaults hdefaults)).mpr ⟨?_, by decide⟩
    refine (mem_ofDefaults hdefaults).mpr ?_
    decide
  have hnone : emptied.mapping f1 = none := by decide
  refine ⟨⟨by decide, hnone, ?_⟩, by decide, ?_⟩
  · have hloaded : loadedEmptied.mapping f1 = (emptied.mapping f1).or (ofProfile.mapping f1) :=
      mapping_reload hdefaults hemptied f1
    rw [hloaded, hnone, hdefault]
    rfl
  · have hpairs : loadedKeyed.pairs = sort [(a, b)] := by rfl
    have hsorted : loadedKeyed.pairs = [(a, b)] :=
      hpairs.trans (List.perm_singleton.mp (sort_perm _))
    unfold mapping
    rw [hsorted]
    decide

end Karabiner.CoreConfiguration.SimpleModifications
