import Karabiner.CoreConfiguration.Profile

/-!
# What simple modifications map

A `from` is mapped to the `to` of the first pair that can be used; a pair whose `from` has an empty
key is none of those, since `update` removes that key.  What is written is the mapping, except for
the pairs that are the default, and what is read overrides the default.

* `Canonical` — the pairs that the edits leave: each text is the `dump` of a value that is read
  back.
* `mem_texts_firstPairs` — what `to_json` goes through is the mapping.
* `mem_readArray` — what is read overrides what is there.
* `mapping_reload` — what is mapped after saving and loading, over any default list.
-/

namespace Karabiner.CoreConfiguration.SimpleModifications

variable [NlohmannJson]

/-- The vendored library reads back what it writes. -/
def ReadsBack (json : Json) : Prop := NlohmannJson.parse (NlohmannJson.dump json) = some json

/-! ### The mapping -/

/-- A pair that maps its `from`: a non-empty object without an empty key, to a non-empty array. -/
def maps (pair : String × String) : Bool :=
  match NlohmannJson.parse pair.1, NlohmannJson.parse pair.2 with
  | some (.object members), some (.array elements) =>
    !members.isEmpty && "" ∉ members.map Prod.fst && !elements.isEmpty
  | _, _ => false

/-- The first pair that maps a `from`. -/
def mapping (m : SimpleModifications) (fromText : String) : Option String :=
  (m.pairs.find? fun pair => pair.1 = fromText && maps pair).map Prod.snd

/-- The text of the pair that `update` reads from an element. -/
def text (element : Json × Json) : String × String :=
  (NlohmannJson.dump element.1, NlohmannJson.dump (migrateToJson element.2))

omit [NlohmannJson] in
/-- An object without an empty key. -/
def NoEmptyKey (json : Json) : Prop := ∀ members, json = .object members → "" ∉ members.map Prod.fst

/-- A pair whose texts stand for values, without an empty key in its `from`. -/
structure Canonical (pair : String × String) : Prop where
  exists_from : ∃ json, ReadsBack json ∧ NlohmannJson.dump json = pair.1 ∧ NoEmptyKey json
  exists_to : ∃ json, ReadsBack json ∧ NlohmannJson.dump json = pair.2

/-- An element that is written: a pair of a non-empty object without an empty key and a non-empty
array, both of which are read back. -/
structure Writable (element : Json × Json) : Prop where
  exists_from : ∃ members, element.1 = .object members ∧ members ≠ [] ∧ "" ∉ members.map Prod.fst
  exists_to : ∃ elements, element.2 = .array elements ∧ elements ≠ []
  from_ : ReadsBack element.1
  to_ : ReadsBack element.2

/-- What is writable needs no migration. -/
theorem Writable.migrateToJson {element : Json × Json} (h : Writable element) :
    migrateToJson element.2 = element.2 := by
  obtain ⟨elements, helements, -⟩ := h.exists_to
  rw [helements]
  rfl

/-- Canonical pairs that can be used are those that map. -/
theorem Canonical.usablePair {pair : String × String} (h : Canonical pair) :
    (maps pair = false ∧ usablePair pair = none) ∨
      ∃ element, maps pair = true ∧ SimpleModifications.usablePair pair = some element ∧
        Writable element ∧ text element = pair := by
  obtain ⟨fromJson, hfrom, hfromText, hkey⟩ := h.exists_from
  obtain ⟨toJson, hto, htoText⟩ := h.exists_to
  have hparseFrom : NlohmannJson.parse pair.1 = some fromJson := hfromText ▸ hfrom
  have hparseTo : NlohmannJson.parse pair.2 = some toJson := htoText ▸ hto
  unfold maps SimpleModifications.usablePair
  rw [hparseFrom, hparseTo]
  cases fromJson with
  | object members =>
      have hempty : "" ∉ members.map Prod.fst := hkey members rfl
      cases toJson with
      | array elements =>
          cases hmembers : members with
          | nil => exact .inl ⟨rfl, rfl⟩
          | cons member members =>
              cases helements : elements with
              | nil => exact .inl ⟨by simp, rfl⟩
              | cons element elements =>
                  subst hmembers helements
                  refine .inr ⟨_, by simpa using hempty, rfl, ⟨⟨_, rfl, by simp, hempty⟩,
                    ⟨_, rfl, by simp⟩, hfrom, hto⟩, Prod.ext hfromText htoText⟩
      | _ => exact .inl ⟨rfl, rfl⟩
  | _ => exact .inl ⟨rfl, rfl⟩

/-! ### Writing -/

/-- **What is written**, before the defaults are left out: the first pair that maps each `from`. -/
theorem mem_texts_firstPairs {pairs : List (String × String)} (h : ∀ p ∈ pairs, Canonical p)
    (froms : List String) (p : String × String) :
    p ∈ (firstPairs froms pairs).map text ↔
      p.1 ∉ froms ∧ pairs.find? (fun q => q.1 = p.1 && maps q) = some p := by
  induction pairs generalizing froms with
  | nil => simp [firstPairs]
  | cons q pairs ih =>
      have ih := ih fun p hp => h p (List.mem_cons_of_mem q hp)
      rw [firstPairs, List.find?_cons]
      rcases (h q List.mem_cons_self).usablePair with
        ⟨hmaps, husable⟩ | ⟨e, hmaps, husable, -, htext⟩
      · rw [husable, hmaps, Bool.and_false]
        exact ih froms
      · rw [husable, hmaps, Bool.and_true]
        by_cases hq : q.1 = p.1
        · rw [decide_eq_true hq]
          dsimp only
          split_ifs with hfroms
          · rw [ih froms]
            refine iff_of_false (fun hp => hp.1 (hq ▸ hfroms)) (fun hp => hp.1 (hq ▸ hfroms))
          · rw [List.map_cons, List.mem_cons, ih, htext]
            constructor
            · rintro (rfl | ⟨hp, -⟩)
              · exact ⟨hfroms, rfl⟩
              · exact absurd (List.mem_cons.mpr (.inl hq.symm)) hp
            · rintro ⟨-, hqp⟩
              exact .inl (Option.some.inj hqp).symm
        · rw [decide_eq_false hq]
          dsimp only
          split_ifs with hfroms
          · exact ih froms
          · have hne : p ≠ q := fun heq => hq (congrArg Prod.fst heq).symm
            rw [List.map_cons, List.mem_cons, ih, htext, List.mem_cons, not_or]
            exact ⟨fun hp => hp.elim (absurd · hne) fun hp => ⟨hp.1.2, hp.2⟩,
              fun hp => .inr ⟨⟨Ne.symm hq, hp.1⟩, hp.2⟩⟩

/-- Of canonical pairs, what is chosen to be written is writable. -/
theorem writable_of_mem_firstPairs {pairs : List (String × String)} (h : ∀ p ∈ pairs, Canonical p)
    {froms : List String} {element : Json × Json} (helement : element ∈ firstPairs froms pairs) :
    Writable element := by
  obtain ⟨p, hp, husable⟩ := exists_of_mem_firstPairs helement
  rcases (h p hp).usablePair with ⟨-, hnone⟩ | ⟨e, -, hsome, hwritable, -⟩
  · rw [hnone] at husable
    cases husable
  · rw [hsome] at husable
    exact Option.some.inj husable ▸ hwritable

/-- Every `from` is written once. -/
theorem nodup_firstPairs {pairs : List (String × String)} (h : ∀ p ∈ pairs, Canonical p)
    (froms : List String) :
    (((firstPairs froms pairs).map text).map Prod.fst).Nodup := by
  induction pairs generalizing froms with
  | nil => exact List.nodup_nil
  | cons q pairs ih =>
      have hpairs : ∀ p ∈ pairs, Canonical p := fun p hp => h p (List.mem_cons_of_mem q hp)
      rw [firstPairs]
      rcases (h q List.mem_cons_self).usablePair with ⟨-, husable⟩ | ⟨e, -, husable, -, htext⟩
      · rw [husable]
        exact ih hpairs froms
      · rw [husable]
        dsimp only
        split_ifs with hfroms
        · exact ih hpairs froms
        · rw [List.map_cons, List.map_cons, htext, List.nodup_cons]
          refine ⟨fun hmem => ?_, ih hpairs _⟩
          obtain ⟨p, hp, hpq⟩ := List.mem_map.mp hmem
          exact ((mem_texts_firstPairs hpairs _ p).mp hp).1 (List.mem_cons.mpr (.inl hpq))

/-! ### Reading -/

/-- An element whose `from` is an object without an empty key and is read back. -/
structure Readable (element : Json × Json) : Prop where
  exists_from : ∃ members, element.1 = .object members ∧ "" ∉ members.map Prod.fst
  from_ : ReadsBack element.1

/-- What is written can be read. -/
theorem Writable.readable {element : Json × Json} (h : Writable element) : Readable element :=
  ⟨h.exists_from.imp fun _ h => ⟨h.1, h.2.2⟩, h.from_⟩

/-- A readable element reads as the pair of its texts. -/
theorem Readable.readPair {element : Json × Json} (h : Readable element) :
    readPair [("from", element.1), ("to", element.2)] = .ok (some (text element)) := by
  obtain ⟨members, hmembers, hempty⟩ := h.exists_from
  have herase : Json.erase "" members = members := by
    refine List.filter_eq_self.mpr fun m hm => decide_eq_true ?_
    exact fun heq => hempty (heq ▸ List.mem_map_of_mem hm)
  unfold text
  rw [hmembers]
  exact congrArg (fun m => Except.ok (some (NlohmannJson.dump (.object m), _))) herase

theorem Readable.addPair {element : Json × Json} (h : Readable element)
    (pairs : List (String × String)) :
    addPair (text element) pairs =
      pairs.filter (fun p => p.1 ≠ (text element).1) ++ [text element] := by
  have hparse : NlohmannJson.parse (text element).1 = some element.1 := h.from_
  unfold SimpleModifications.addPair eraseByFromJsonString
  rw [hparse]
  rfl

theorem readArray_cons {element : Json × Json} (h : Readable element)
    (elements : List (Json × Json)) (pairs : List (String × String)) :
    readArray pairs ((element :: elements).map pairJson) =
      readArray (addPair (text element) pairs) (elements.map pairJson) := by
  rw [List.map_cons, pairJson, readArray, h.readPair]

/-- **What is read overrides what is there.** -/
theorem mem_readArray {elements : List (Json × Json)} (h : ∀ e ∈ elements, Readable e)
    (hnodup : ((elements.map text).map Prod.fst).Nodup) {pairs : List (String × String)}
    {p : String × String} :
    p ∈ (readArray pairs (elements.map pairJson)).value ↔
      p ∈ elements.map text ∨ p.1 ∉ (elements.map text).map Prod.fst ∧ p ∈ pairs := by
  induction elements generalizing pairs with
  | nil => simp [readArray]
  | cons e elements ih =>
      have he := h e List.mem_cons_self
      rw [List.map_cons, List.map_cons, List.nodup_cons] at hnodup
      rw [readArray_cons he, ih (fun e he => h e (List.mem_cons_of_mem _ he)) hnodup.2, he.addPair]
      simp only [List.mem_append, List.mem_filter, decide_eq_true_eq, List.map_cons, List.mem_cons,
        List.not_mem_nil, or_false, not_or]
      constructor
      · rintro (hp | ⟨hnot, ⟨hp, hne⟩ | rfl⟩)
        · exact .inl (.inr hp)
        · exact .inr ⟨⟨hne, hnot⟩, hp⟩
        · exact .inl (.inl rfl)
      · rintro ((rfl | hp) | ⟨⟨hne, hnot⟩, hp⟩)
        · exact .inr ⟨hnodup.1, .inr rfl⟩
        · exact .inl hp
        · exact .inr ⟨hnot, .inl ⟨hp, hne⟩⟩

/-- Reading leaves one pair for each `from`. -/
theorem nodup_readArray {elements : List (Json × Json)} (h : ∀ e ∈ elements, Readable e)
    {pairs : List (String × String)} (hpairs : (pairs.map Prod.fst).Nodup) :
    ((readArray pairs (elements.map pairJson)).value.map Prod.fst).Nodup := by
  induction elements generalizing pairs with
  | nil => exact hpairs
  | cons e elements ih =>
      have he := h e List.mem_cons_self
      rw [readArray_cons he]
      refine ih (fun e he => h e (List.mem_cons_of_mem _ he)) ?_
      rw [he.addPair, List.map_append, List.nodup_append]
      refine ⟨(List.filter_sublist.map Prod.fst).nodup hpairs, List.nodup_singleton _, ?_⟩
      intro a ha b hb hab
      obtain ⟨p, hp, rfl⟩ := List.mem_map.mp ha
      obtain rfl : b = (text e).1 := List.mem_singleton.mp hb
      exact of_decide_eq_true (List.mem_filter.mp hp).2 hab

/-- One pair for each `from` decides what it is mapped to. -/
theorem find?_eq_some_iff_of_nodup {pairs : List (String × String)}
    (hnodup : (pairs.map Prod.fst).Nodup) {p : String × String} :
    pairs.find? (fun q => q.1 = p.1 && maps q) = some p ↔ p ∈ pairs ∧ maps p = true := by
  induction pairs with
  | nil => simp
  | cons q pairs ih =>
      rw [List.map_cons, List.nodup_cons] at hnodup
      rw [List.find?_cons, List.mem_cons]
      by_cases hq : q.1 = p.1
      · have hnotMem : p ∉ pairs := fun hp => hnodup.1 (hq ▸ List.mem_map_of_mem hp)
        rw [decide_eq_true hq, Bool.true_and]
        cases hmaps : maps q with
        | true =>
            refine ⟨fun h => Option.some.inj h ▸ ⟨.inl rfl, hmaps⟩, fun h => ?_⟩
            rw [h.1.resolve_right hnotMem]
        | false =>
            dsimp only
            rw [ih hnodup.2]
            refine ⟨fun h => absurd h.1 hnotMem, fun h => ?_⟩
            obtain rfl := h.1.resolve_right hnotMem
            exact absurd h.2 (by simp [hmaps])
      · have hne : p ≠ q := fun heq => hq (congrArg Prod.fst heq).symm
        rw [decide_eq_false hq, Bool.false_and]
        dsimp only
        rw [ih hnodup.2]
        exact and_congr_left fun _ => ⟨.inr, fun h => h.resolve_left hne⟩

/-- A text maps to what the first pair for it says. -/
theorem mapping_eq_some {m : SimpleModifications} {fromText toText : String} :
    m.mapping fromText = some toText ↔
      m.pairs.find? (fun q => q.1 = fromText && maps q) = some (fromText, toText) := by
  unfold mapping
  rw [Option.map_eq_some_iff]
  constructor
  · rintro ⟨p, hp, rfl⟩
    have hfrom := List.find?_some hp
    rw [Bool.and_eq_true, decide_eq_true_eq] at hfrom
    rw [hp, ← hfrom.1]
  · exact fun h => ⟨_, h, rfl⟩

/-- If no text occurs twice, the order does not matter. -/
theorem mapping_eq_some_of_nodup {m : SimpleModifications}
    (hnodup : (m.pairs.map Prod.fst).Nodup) {fromText toText : String} :
    m.mapping fromText = some toText ↔
      (fromText, toText) ∈ m.pairs ∧ maps (fromText, toText) = true :=
  mapping_eq_some.trans (find?_eq_some_iff_of_nodup hnodup (p := (fromText, toText)))

section

variable [NaturalSort]

/-- An update sorts what it has read. -/
theorem pairs_update {elements : List (Json × Json)} (h : ∀ e ∈ elements, Readable e)
    (m : SimpleModifications) :
    (m.update (.array (elements.map pairJson))).value.pairs.Perm
      (readArray m.pairs (elements.map pairJson)).value := by
  have herror := error_readArray (fun e he => (h e he).exists_from.imp fun _ h => h.1) m.pairs
  unfold update
  dsimp only
  split
  · next heq =>
      rw [heq]
      exact sort_perm _
  · next heq =>
      rw [heq] at herror
      cases herror

/-! ### The round trip -/

omit [NaturalSort] in
/-- What is writable maps something. -/
theorem maps_of_writable {element : Json × Json} (h : Writable element) :
    maps (text element) = true := by
  obtain ⟨members, hmembers, hne, hempty⟩ := h.exists_from
  obtain ⟨elements, helements, hne'⟩ := h.exists_to
  have hfrom : NlohmannJson.parse (text element).1 = some (.object members) := hmembers ▸ h.from_
  have hto : NlohmannJson.parse (text element).2 = some (.array elements) := by
    unfold text
    rw [h.migrateToJson]
    exact helements ▸ h.to_
  unfold maps
  rw [hfrom, hto]
  simp [hne, hne', hempty]

/-- The defaults: readable elements with different texts, and what is written compares as equal to
one of them only if it is the same. -/
structure IsDefaultList (defaults : List (Json × Json)) : Prop where
  readable : ∀ d ∈ defaults, Readable d
  nodup : ((defaults.map text).map Prod.fst).Nodup
  compare : ∀ d ∈ defaults, ∀ e, Writable e → (e.1 == d.1) = true → (e.2 == d.2) = true → e = d

omit [NaturalSort] in
/-- What counts as a default is one of the list. -/
theorem IsDefaultList.mem_of_isDefault {defaults : List (Json × Json)} (h : IsDefaultList defaults)
    {e : Json × Json} (he : Writable e) (hdefault : isDefault (defaults.map pairJson) e = true) :
    e ∈ defaults := by
  unfold isDefault at hdefault
  rw [List.any_map, List.any_eq_true] at hdefault
  obtain ⟨d, hd, hcompare⟩ := hdefault
  obtain ⟨hfrom, hto⟩ := Bool.and_eq_true_iff.mp hcompare
  exact h.compare d hd e he hfrom hto ▸ hd

/-- The modifications that a default list stands for. -/
def ofDefaults (defaults : List (Json × Json)) : SimpleModifications :=
  (update (.array (defaults.map pairJson)) {}).value

/-- The modifications that are read from what was written, over the defaults. -/
def reload (defaults : List (Json × Json)) (m : SimpleModifications) : SimpleModifications :=
  ((ofDefaults defaults).update (m.toJson (defaults.map pairJson))).value

omit [NaturalSort] in
/-- The elements that are written: those that are not a default. -/
def written (defaults : List (Json × Json)) (m : SimpleModifications) : List (Json × Json) :=
  (firstPairs [] m.pairs).filter fun pair => !isDefault (defaults.map pairJson) pair

section Written

variable {m : SimpleModifications} (hm : ∀ p ∈ m.pairs, Canonical p)

include hm

omit [NaturalSort] in
/-- Everything that is written can be read. -/
theorem readable_of_mem_written (defaults : List (Json × Json)) :
    ∀ e ∈ written defaults m, Readable e := by
  intro e he
  exact (writable_of_mem_firstPairs hm (List.mem_filter.mp he).1).readable

omit [NaturalSort] in
/-- No from is written twice. -/
theorem nodup_written (defaults : List (Json × Json)) :
    (((written defaults m).map text).map Prod.fst).Nodup :=
  ((List.filter_sublist.map text).map Prod.fst).nodup (nodup_firstPairs hm [])

omit [NaturalSort] in
/-- The mapping is what is written, before the defaults are left out. -/
theorem mapping_eq_some_iff_mem_firstPairs {fromText toText : String} :
    m.mapping fromText = some toText ↔
      (fromText, toText) ∈ (firstPairs [] m.pairs).map text := by
  rw [mapping_eq_some, mem_texts_firstPairs hm]
  exact (and_iff_right List.not_mem_nil).symm

omit [NaturalSort] in
/-- The `from` of an element that is left out is not written. -/
theorem fst_notMem_written {defaults : List (Json × Json)} {e : Json × Json}
    (he : e ∈ firstPairs [] m.pairs) (hdefault : isDefault (defaults.map pairJson) e = true) :
    (text e).1 ∉ ((written defaults m).map text).map Prod.fst := by
  intro hmem
  rw [List.map_map] at hmem
  obtain ⟨e', he', hfrom⟩ := List.mem_map.mp hmem
  obtain ⟨hmem', hnotDefault⟩ := List.mem_filter.mp he'
  have hnodup := nodup_firstPairs hm []
  rw [List.map_map] at hnodup
  -- An element with the same `from` is the same element, and that one is left out.
  have hsame : e' = e := List.inj_on_of_nodup_map hnodup hmem' he hfrom
  rw [hsame, hdefault] at hnotDefault
  cases hnotDefault

omit [NaturalSort] in
/-- What is written is mapped. -/
theorem mapping_ne_none_of_mem_written {defaults : List (Json × Json)} {fromText : String}
    (h : fromText ∈ ((written defaults m).map text).map Prod.fst) : m.mapping fromText ≠ none := by
  obtain ⟨p, hp, rfl⟩ := List.mem_map.mp h
  obtain ⟨e, he, rfl⟩ := List.mem_map.mp hp
  have hmem : text e ∈ (firstPairs [] m.pairs).map text :=
    List.mem_map_of_mem (List.mem_filter.mp he).1
  have hmapping : m.mapping (text e).1 = some (text e).2 :=
    (mapping_eq_some_iff_mem_firstPairs hm).mpr hmem
  exact Option.ne_none_iff_exists'.mpr ⟨_, hmapping⟩

end Written

section Reload

variable {defaults : List (Json × Json)} (hdefaults : IsDefaultList defaults)

include hdefaults

/-- The defaults give the pairs of their texts. -/
theorem mem_ofDefaults {p : String × String} :
    p ∈ (ofDefaults defaults).pairs ↔ p ∈ defaults.map text := by
  unfold ofDefaults
  rw [(pairs_update hdefaults.readable {}).mem_iff,
    mem_readArray hdefaults.readable hdefaults.nodup]
  simp

/-- Among them no from occurs twice. -/
theorem nodup_ofDefaults : ((ofDefaults defaults).pairs.map Prod.fst).Nodup :=
  ((pairs_update hdefaults.readable {}).map Prod.fst).nodup_iff.mpr
    (nodup_readArray hdefaults.readable List.nodup_nil)

variable {m : SimpleModifications} (hm : ∀ p ∈ m.pairs, Canonical p)

include hm

/-- Every `from` is there once after it is read. -/
theorem nodup_reload : ((m.reload defaults).pairs.map Prod.fst).Nodup := by
  have hreadable := readable_of_mem_written hm defaults
  exact ((pairs_update hreadable _).map Prod.fst).nodup_iff.mpr
    (nodup_readArray hreadable (nodup_ofDefaults hdefaults))

/-- What is read over the defaults. -/
theorem mem_reload {p : String × String} :
    p ∈ (m.reload defaults).pairs ↔
      p ∈ (written defaults m).map text ∨
        p.1 ∉ ((written defaults m).map text).map Prod.fst ∧ p ∈ defaults.map text := by
  have hreadable := readable_of_mem_written hm defaults
  have hpairs : (m.reload defaults).pairs.Perm _ := pairs_update hreadable (ofDefaults defaults)
  rw [hpairs.mem_iff, mem_readArray hreadable (nodup_written hm defaults), mem_ofDefaults hdefaults]

/-- **What is mapped after saving and loading**: a `from` that was not mapped has its default. -/
theorem mapping_reload (fromText : String) :
    (m.reload defaults).mapping fromText =
      (m.mapping fromText).or ((ofDefaults defaults).mapping fromText) := by
  have hreload (toText : String) : (m.reload defaults).mapping fromText = some toText ↔
      (fromText, toText) ∈ (m.reload defaults).pairs ∧ maps (fromText, toText) = true :=
    mapping_eq_some_of_nodup (nodup_reload hdefaults hm)
  cases hmapping : m.mapping fromText with
  | some toText =>
      obtain ⟨e, he, htext⟩ := List.mem_map.mp ((mapping_eq_some_iff_mem_firstPairs hm).mp hmapping)
      have hwritable := writable_of_mem_firstPairs hm he
      rw [Option.some_or, hreload, mem_reload hdefaults hm, ← htext]
      refine ⟨?_, maps_of_writable hwritable⟩
      -- What is mapped is written, or it is a default that nothing written overrides.
      cases hdefault : isDefault (defaults.map pairJson) e with
      | false =>
          left
          exact List.mem_map_of_mem (List.mem_filter.mpr ⟨he, by rw [hdefault]; rfl⟩)
      | true =>
          right
          exact ⟨fst_notMem_written hm he hdefault,
            List.mem_map_of_mem (hdefaults.mem_of_isDefault hwritable hdefault)⟩
  | none =>
      have hnotWritten : fromText ∉ ((written defaults m).map text).map Prod.fst := fun h =>
        mapping_ne_none_of_mem_written hm h hmapping
      rw [Option.none_or]
      ext toText
      rw [hreload, mem_reload hdefaults hm,
        mapping_eq_some_of_nodup (nodup_ofDefaults hdefaults), mem_ofDefaults hdefaults]
      refine and_congr_left fun _ => ⟨?_, fun h => .inr ⟨hnotWritten, h⟩⟩
      rintro (h | h)
      · exact absurd (List.mem_map_of_mem (f := Prod.fst) h) hnotWritten
      · exact h.2

end Reload

end

end Karabiner.CoreConfiguration.SimpleModifications
