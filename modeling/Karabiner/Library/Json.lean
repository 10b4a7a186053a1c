import Mathlib.Algebra.Ring.Int.Defs
import Mathlib.Data.Rat.Defs
import Mathlib.Data.Rat.Init
import Mathlib.Data.String.Basic

/-!
# JSON values

The values of a JSON library whose objects are ordered maps: an object lists its members in the
order of their keys, and a number is an integer or a floating-point number, here a rational.

* `Json.set`, `Json.erase` — assigning and removing a member, with what a lookup finds afterwards.
* `Json.Canonical` — the values whose objects are ordered.
* `Json.putAll` — writing a record over what an object had, where a field without a value is
  removed.
* `Json.beq` — the comparison of values, which does not tell an integer from an equal float.
* `Json.toInt`, `Json.toNat`, `Json.toRat` — the conversions of numbers, which wrap around.
-/

/-- A JSON value. -/
inductive Json
  | null
  | boolean (value : Bool)
  | integer (value : ℤ)
  | float (value : ℚ)
  | string (value : String)
  | array (elements : List Json)
  | object (members : List (String × Json))
deriving Repr

namespace Json

/-- The members of an object. -/
abbrev Members := List (String × Json)

/-- Nothing is in the value: `null`, or an array or an object without elements. -/
def isEmpty : Json → Bool
  | null => true
  | array elements => elements.isEmpty
  | object members => members.isEmpty
  | _ => false

mutual

/-- Equality of values. -/
def beq : Json → Json → Bool
  | null, null => true
  | boolean a, boolean b => a = b
  | integer a, integer b => a = b
  | integer a, float b => (a : ℚ) = b
  | float a, integer b => a = b
  | float a, float b => a = b
  | string a, string b => a = b
  | array a, array b => beqElements a b
  | object a, object b => beqMembers a b
  | _, _ => false

/-- Equality of arrays. -/
def beqElements : List Json → List Json → Bool
  | [], [] => true
  | a :: as, b :: bs => beq a b && beqElements as bs
  | _, _ => false

/-- Equality of objects. -/
def beqMembers : List (String × Json) → List (String × Json) → Bool
  | [], [] => true
  | (k, a) :: as, (l, b) :: bs => k = l && beq a b && beqMembers as bs
  | _, _ => false

end

instance : BEq Json := ⟨beq⟩

mutual

theorem beq_self : (json : Json) → json.beq json = true
  | null => rfl
  | boolean _ => by simp [beq]
  | integer _ => by simp [beq]
  | float _ => by simp [beq]
  | string _ => by simp [beq]
  | array elements => by simpa [beq] using beqElements_self elements
  | object members => by simpa [beq] using beqMembers_self members

theorem beqElements_self : (elements : List Json) → beqElements elements elements = true
  | [] => rfl
  | json :: elements => by simp [beqElements, beq_self json, beqElements_self elements]

theorem beqMembers_self : (members : List (String × Json)) → beqMembers members members = true
  | [] => rfl
  | (key, json) :: members => by simp [beqMembers, beq_self json, beqMembers_self members]

end

/-- Only the same object compares as equal to one that has a single string. -/
theorem eq_of_beq_object_string {json : Json} {key value : String}
    (h : json.beq (object [(key, string value)]) = true) :
    json = object [(key, string value)] := by
  cases json with
  | object members =>
      rcases members with - | ⟨⟨k, member⟩, rest⟩
      · simp [beq, beqMembers] at h
      · cases member <;> cases rest <;> simp_all [beq, beqMembers]
  | _ => simp [beq] at h

/-- Only the same array compares as equal to one of a single element. -/
theorem eq_of_beq_array_singleton {json element : Json}
    (helement : ∀ other : Json, other.beq element = true → other = element)
    (h : json.beq (array [element]) = true) : json = array [element] := by
  cases json with
  | array elements =>
      rcases elements with - | ⟨other, rest⟩
      · simp [beq, beqElements] at h
      · cases rest with
        | nil =>
            rw [beq, beqElements, beqElements, Bool.and_true] at h
            rw [helement other h]
        | cons _ _ => simp [beq, beqElements] at h
  | _ => simp [beq] at h

/-! ### Numbers -/

/-- The conversion of a floating-point number to an integer. -/
def truncate (x : ℚ) : ℤ := x.num.tdiv x.den

/-- The conversion of a number to a signed integer of a given width. -/
def toInt (width : ℕ) : Json → Option ℤ
  | integer n => some (n.bmod (2 ^ width))
  | float x => some ((truncate x).bmod (2 ^ width))
  | _ => none

/-- The conversion of a number to an unsigned integer of a given width. -/
def toNat (width : ℕ) : Json → Option ℕ
  | integer n => some (n % 2 ^ width).toNat
  | float x => some (truncate x % 2 ^ width).toNat
  | _ => none

/-- The conversion of a number to a floating-point number. -/
def toRat : Json → Option ℚ
  | integer n => some n
  | float x => some x
  | _ => none

/-- The integer is one of a signed type of the width. -/
def FitsInt (width : ℕ) (n : ℤ) : Prop := -2 ^ width ≤ n * 2 ∧ n * 2 < 2 ^ width

instance (width : ℕ) (n : ℤ) : Decidable (FitsInt width n) :=
  inferInstanceAs (Decidable (_ ∧ _))

/-- An integer that fits is converted to itself. -/
theorem toInt_integer {width : ℕ} {n : ℤ} (h : FitsInt width n) :
    (integer n).toInt width = some n := by
  obtain ⟨low, high⟩ := h
  have hn : n.bmod (2 ^ width) = n := by
    apply Int.bmod_eq_of_le_mul_two <;> push_cast <;> assumption
  rw [toInt, hn]

/-- The conversion of a number always fits. -/
theorem fitsInt_of_toInt {width : ℕ} (hwidth : width ≠ 0) {json : Json} {n : ℤ}
    (h : json.toInt width = some n) : FitsInt width n := by
  have hpos : 0 < 2 ^ width := Nat.two_pow_pos width
  have hfits (m : ℤ) : FitsInt width (m.bmod (2 ^ width)) := by
    obtain ⟨k, rfl⟩ : ∃ k, width = k + 1 := ⟨width - 1, by omega⟩
    have hlow := Int.le_bmod (x := m) hpos
    have hhigh := Int.bmod_lt (x := m) hpos
    simp only [FitsInt, pow_succ] at *
    push_cast at *
    omega
  cases json with
  | integer m =>
      obtain rfl : m.bmod (2 ^ width) = n := Option.some.inj h
      exact hfits m
  | float x =>
      obtain rfl : (truncate x).bmod (2 ^ width) = n := Option.some.inj h
      exact hfits _
  | _ => cases h

/-- Only an integer that fits is converted to itself. -/
theorem toInt_integer_iff {width : ℕ} (hwidth : width ≠ 0) {n : ℤ} :
    (integer n).toInt width = some n ↔ FitsInt width n :=
  ⟨fitsInt_of_toInt hwidth, toInt_integer⟩

/-- A natural number that fits is converted to itself. -/
theorem toNat_integer {width n : ℕ} (high : n < 2 ^ width) :
    (integer n).toNat width = some n := by
  have hn : ((n : ℤ) % 2 ^ width).toNat = n := by
    rw [Int.emod_eq_of_lt (Int.natCast_nonneg n) (by exact_mod_cast high), Int.toNat_natCast]
  rw [toNat, hn]

/-! ### Members -/

/-- Assign a member, in the order of the keys. -/
def set (key : String) (value : Json) : Members → Members
  | [] => [(key, value)]
  | (k, v) :: members =>
    if key < k then (key, value) :: (k, v) :: members
    else if key = k then (key, value) :: members
    else (k, v) :: set key value members

/-- Assign a member of a value; `null` becomes an object. -/
def assign (key : String) (value : Json) : Json → Json
  | object members => object (set key value members)
  | null => object [(key, value)]
  | json => json

/-- Remove a member. -/
def erase (key : String) (members : Members) : Members := members.filter fun m => m.1 ≠ key

@[simp] theorem lookup_set_self (key : String) (value : Json) (members : Members) :
    (set key value members).lookup key = some value := by
  induction members with
  | nil => simp [set]
  | cons m members ih =>
      obtain ⟨k, v⟩ := m
      unfold set
      split_ifs with hlt heq
      · simp
      · simp
      · have hne : (key == k) = false := by simpa using heq
        simpa [List.lookup_cons, hne] using ih

theorem lookup_set_of_ne {key other : String} (hne : other ≠ key) (value : Json)
    (members : Members) : (set key value members).lookup other = members.lookup other := by
  have hbeq : (other == key) = false := by simpa using hne
  induction members with
  | nil => simp [set, List.lookup_cons, hbeq]
  | cons m members ih =>
      obtain ⟨k, v⟩ := m
      unfold set
      split_ifs with hlt heq
      · simp [List.lookup_cons, hbeq]
      · subst heq
        simp [List.lookup_cons, hbeq]
      · simp [List.lookup_cons, ih]

@[simp] theorem lookup_erase_self (key : String) (members : Members) :
    (erase key members).lookup key = none := by
  rw [List.lookup_eq_none_iff]
  intro m hm
  have hkey : m.1 ≠ key := by simpa using (List.mem_filter.mp hm).2
  simpa using Ne.symm hkey

theorem lookup_erase_of_ne {key other : String} (hne : other ≠ key) (members : Members) :
    (erase key members).lookup other = members.lookup other := by
  induction members with
  | nil => rfl
  | cons m members ih =>
      obtain ⟨k, v⟩ := m
      unfold erase at ih ⊢
      by_cases hk : k = key
      · subst hk
        have hbeq : (other == k) = false := by simpa using hne
        simpa [List.lookup_cons, hbeq] using ih
      · rw [List.filter_cons_of_pos (by simpa using hk), List.lookup_cons, List.lookup_cons, ih]

theorem mem_set_self (key : String) (value : Json) (members : Members) :
    (key, value) ∈ set key value members := by
  induction members with
  | nil => simp [set]
  | cons m members ih =>
      unfold set
      split_ifs <;> simp [ih]

/-- A set brings no member but its own. -/
theorem eq_or_mem_of_mem_set {key : String} {value : Json} {m : String × Json} {members : Members}
    (h : m ∈ set key value members) : m = (key, value) ∨ m ∈ members := by
  induction members with
  | nil => exact .inl (List.mem_singleton.mp h)
  | cons n members ih =>
      unfold set at h
      split_ifs at h
      · exact List.mem_cons.mp h
      · exact (List.mem_cons.mp h).imp_right (List.mem_cons_of_mem n)
      · rcases List.mem_cons.mp h with rfl | h
        · exact .inr List.mem_cons_self
        · exact (ih h).imp_right (List.mem_cons_of_mem n)

/-- A member under another key is kept. -/
theorem mem_set_of_ne {key : String} {m : String × Json} (hne : m.1 ≠ key) (value : Json)
    {members : Members} : m ∈ set key value members ↔ m ∈ members := by
  have hself : m ≠ (key, value) := fun h => hne (congrArg Prod.fst h)
  induction members with
  | nil => simp [set, hself]
  | cons n members ih =>
      unfold set
      split_ifs with hlt heq
      · simp [hself]
      · have hhead : m ≠ n := fun h => hne ((congrArg Prod.fst h).trans heq.symm)
        simp [hself, hhead]
      · simp [ih]

/-- The members stand in the order of their keys. -/
def Ordered (members : Members) : Prop := members.Pairwise fun m n => m.1 < n.1

/-- Setting a member keeps the keys ordered. -/
theorem Ordered.set {members : Members} (h : Ordered members) (key : String) (value : Json) :
    Ordered (set key value members) := by
  induction members with
  | nil => exact List.pairwise_singleton _ _
  | cons m members ih =>
      obtain ⟨k, v⟩ := m
      obtain ⟨hhead, htail⟩ := List.pairwise_cons.mp h
      unfold Json.set
      split_ifs with hlt heq
      · refine List.pairwise_cons.mpr ⟨fun n hn => ?_, h⟩
        rcases List.mem_cons.mp hn with rfl | hn
        · exact hlt
        · exact hlt.trans (hhead n hn)
      · subst heq
        exact List.pairwise_cons.mpr ⟨hhead, htail⟩
      · refine List.pairwise_cons.mpr ⟨fun n hn => ?_, ih htail⟩
        rcases eq_or_mem_of_mem_set hn with rfl | hn
        · exact lt_of_le_of_ne (not_lt.mp hlt) (Ne.symm heq)
        · exact hhead n hn

/-- An ordered object has one member under a key. -/
theorem Ordered.nodup {members : Members} (h : Ordered members) :
    (members.map Prod.fst).Nodup :=
  List.pairwise_map.mpr (h.imp fun hlt => hlt.ne)

/-- All objects in a value are ordered. -/
inductive Canonical : Json → Prop
  | null : Canonical null
  | boolean (value : Bool) : Canonical (boolean value)
  | integer (value : ℤ) : Canonical (integer value)
  | float (value : ℚ) : Canonical (float value)
  | string (value : String) : Canonical (string value)
  | array {elements : List Json} (elements_canonical : ∀ e ∈ elements, Canonical e) :
      Canonical (array elements)
  | object {members : Members} (ordered : Ordered members)
      (members_canonical : ∀ m ∈ members, Canonical m.2) : Canonical (object members)

@[simp] theorem mem_erase {key : String} {m : String × Json} {members : Members} :
    m ∈ erase key members ↔ m ∈ members ∧ m.1 ≠ key := by
  simp [erase]

/-! ### Members that are written or removed -/

/-- Assign a member if there is a value, and remove it otherwise. -/
def put (key : String) (value : Option Json) (members : Members) : Members :=
  match value with
  | some value => set key value (erase key members)
  | none => erase key members

/-- Put several members, one after another. -/
def putAll (entries : List (String × Option Json)) (members : Members) : Members :=
  entries.foldl (fun members entry => put entry.1 entry.2 members) members

@[simp] theorem lookup_put_self (key : String) (value : Option Json) (members : Members) :
    (put key value members).lookup key = value := by
  cases value <;> simp [put]

theorem lookup_put_of_ne {key other : String} (hne : other ≠ key) (value : Option Json)
    (members : Members) : (put key value members).lookup other = members.lookup other := by
  have herase := lookup_erase_of_ne hne members
  cases value with
  | none => exact herase
  | some value => exact (lookup_set_of_ne hne value _).trans herase

/-- A member under another key is kept. -/
theorem mem_put_of_ne {key : String} {m : String × Json} (hne : m.1 ≠ key) (value : Option Json)
    {members : Members} : m ∈ put key value members ↔ m ∈ members := by
  have herase : m ∈ erase key members ↔ m ∈ members := by simp [hne]
  cases value with
  | none => exact herase
  | some value => exact (mem_set_of_ne hne value).trans herase

/-- A member that is left was put, or was there under another key. -/
theorem mem_put {key : String} {value : Option Json} {m : String × Json} {members : Members}
    (h : m ∈ put key value members) :
    (m.1 = key ∧ value = some m.2) ∨ (m.1 ≠ key ∧ m ∈ members) := by
  cases value with
  | none => exact .inr (mem_erase.mp h).symm
  | some value =>
      rcases eq_or_mem_of_mem_set h with rfl | h
      · exact .inl ⟨rfl, rfl⟩
      · exact .inr (mem_erase.mp h).symm

@[simp] theorem putAll_nil (members : Members) : putAll [] members = members := rfl

@[simp] theorem putAll_cons (key : String) (value : Option Json)
    (entries : List (String × Option Json)) (members : Members) :
    putAll ((key, value) :: entries) members = putAll entries (put key value members) := rfl

/-- A key that is not written is found as before. -/
theorem lookup_putAll_of_notMem {key : String} {entries : List (String × Option Json)}
    (hkey : key ∉ entries.map Prod.fst) (members : Members) :
    (putAll entries members).lookup key = members.lookup key := by
  induction entries generalizing members with
  | nil => rfl
  | cons entry entries ih =>
      simp only [List.map_cons, List.mem_cons, not_or] at hkey
      rw [putAll_cons, ih hkey.2, lookup_put_of_ne hkey.1]

/-- Every key that is written has the value that was written. -/
theorem lookup_putAll {key : String} {value : Option Json}
    {entries : List (String × Option Json)} (hkeys : (entries.map Prod.fst).Nodup)
    (hentry : (key, value) ∈ entries) (members : Members) :
    (putAll entries members).lookup key = value := by
  induction entries generalizing members with
  | nil => cases hentry
  | cons entry entries ih =>
      obtain ⟨hhead, htail⟩ := List.nodup_cons.mp hkeys
      rcases List.mem_cons.mp hentry with rfl | hmem
      · rw [putAll_cons, lookup_putAll_of_notMem hhead, lookup_put_self]
      · exact ih htail hmem _

/-- A member that is left was written, or was there under a key that is not written. -/
theorem mem_putAll {m : String × Json} {entries : List (String × Option Json)} {members : Members}
    (h : m ∈ putAll entries members) :
    (m.1, some m.2) ∈ entries ∨ (m.1 ∉ entries.map Prod.fst ∧ m ∈ members) := by
  induction entries generalizing members with
  | nil => exact .inr ⟨List.not_mem_nil, h⟩
  | cons entry entries ih =>
      rcases ih h with hentry | ⟨hkey, hput⟩
      · exact .inl (List.mem_cons_of_mem _ hentry)
      · rcases mem_put hput with ⟨hhead, hvalue⟩ | ⟨hhead, hm⟩
        · exact .inl (List.mem_cons.mpr (.inl (Prod.ext hhead hvalue.symm)))
        · refine .inr ⟨?_, hm⟩
          rw [List.map_cons, List.mem_cons, not_or]
          exact ⟨hhead, hkey⟩

/-- Which keys are left: those that are written, and those before that are not removed. -/
theorem forall_mem_putAll_iff {entries : List (String × Option Json)}
    (hkeys : (entries.map Prod.fst).Nodup) (p : String → Prop) {members : Members} :
    (∀ m ∈ putAll entries members, p m.1) ↔
      (∀ entry ∈ entries, p entry.1 ∨ entry.2 = none) ∧
        ∀ m ∈ members, p m.1 ∨ m.1 ∈ entries.map Prod.fst := by
  induction entries generalizing members with
  | nil => simp
  | cons entry entries ih =>
      obtain ⟨key, value⟩ := entry
      obtain ⟨hhead, htail⟩ := List.nodup_cons.mp hkeys
      have hput : (∀ m ∈ put key value members, p m.1 ∨ m.1 ∈ entries.map Prod.fst) ↔
          (p key ∨ value = none) ∧
            ∀ m ∈ members, p m.1 ∨ m.1 = key ∨ m.1 ∈ entries.map Prod.fst := by
        constructor
        · refine fun h => ⟨?_, fun m hm => ?_⟩
          · cases value with
            | none => exact .inr rfl
            | some value => exact .inl ((h _ (mem_set_self key value _)).resolve_right hhead)
          · by_cases hkey : m.1 = key
            · exact .inr (.inl hkey)
            · exact (h m ((mem_put_of_ne hkey value).mpr hm)).imp_right .inr
        · rintro ⟨hvalue, h⟩ m hm
          by_cases hkey : m.1 = key
          · rcases hvalue with hp | rfl
            · exact .inl (hkey ▸ hp)
            · exact absurd hkey (mem_erase.mp hm).2
          · exact (h m ((mem_put_of_ne hkey value).mp hm)).imp_right fun h => h.resolve_left hkey
      rw [putAll_cons, ih htail, hput]
      simp only [List.mem_cons, List.map_cons, forall_eq_or_imp]
      tauto

/-- Nothing is left exactly when nothing is written and every member before is removed. -/
theorem putAll_eq_nil_iff {entries : List (String × Option Json)}
    (hkeys : (entries.map Prod.fst).Nodup) {members : Members} :
    putAll entries members = [] ↔
      (∀ entry ∈ entries, entry.2 = none) ∧ ∀ m ∈ members, m.1 ∈ entries.map Prod.fst := by
  simpa [List.eq_nil_iff_forall_not_mem] using forall_mem_putAll_iff hkeys fun _ => False

/-- How often an object has a key. -/
def count (key : String) (members : Members) : ℕ := members.countP fun m => m.1 = key

theorem count_cons (key : String) (m : String × Json) (members : Members) :
    count key (m :: members) = count key members + if m.1 = key then 1 else 0 := by
  simp [count, List.countP_cons]

theorem length_eq_count_add_length_erase (key : String) (members : Members) :
    members.length = count key members + (erase key members).length := by
  rw [count, erase, ← List.countP_eq_length_filter,
    List.length_eq_countP_add_countP fun m => decide (m.1 = key)]
  simp

theorem count_erase_self (key : String) (members : Members) :
    count key (erase key members) = 0 := by
  simp [count, List.countP_eq_zero]

theorem count_erase_of_ne {key other : String} (hne : other ≠ key) (members : Members) :
    count other (erase key members) = count other members := by
  rw [count, erase, List.countP_filter]
  refine List.countP_congr fun m _ => ?_
  simp only [Bool.and_eq_true, decide_eq_true_eq, and_iff_left_iff_imp]
  rintro rfl
  exact hne

theorem count_set (key other : String) (value : Json) {members : Members}
    (hmembers : count key members = 0) :
    count other (set key value members) = count other members + if key = other then 1 else 0 := by
  induction members with
  | nil => simp [set, count_cons]
  | cons m members ih =>
      rw [count_cons] at hmembers
      have hm : m.1 ≠ key := fun h => by simp [h] at hmembers
      have htail := ih (by omega)
      by_cases hlt : key < m.1
      · simp only [set, hlt, if_true, count_cons]
      · simp only [set, hlt, hm.symm, if_false, count_cons, htail]
        omega

theorem count_put_self (key : String) (value : Json) (members : Members) :
    count key (put key (some value) members) = 1 := by
  have hnone := count_erase_self key members
  simp [put, count_set key key value hnone, hnone]

theorem count_put_of_ne {key other : String} (hne : other ≠ key) (value : Option Json)
    (members : Members) : count other (put key value members) = count other members := by
  have herase := count_erase_of_ne hne members
  cases value with
  | none => exact herase
  | some value =>
      rw [put, count_set key other value (count_erase_self key members), herase, if_neg hne.symm,
        Nat.add_zero]

theorem count_putAll_of_notMem {key : String} {entries : List (String × Option Json)}
    (hkey : key ∉ entries.map Prod.fst) (members : Members) :
    count key (putAll entries members) = count key members := by
  induction entries generalizing members with
  | nil => rfl
  | cons entry entries ih =>
      simp only [List.map_cons, List.mem_cons, not_or] at hkey
      rw [putAll_cons, ih hkey.2, count_put_of_ne hkey.1]

/-- A key that is written with a value is there once. -/
theorem count_putAll {key : String} {value : Json} {entries : List (String × Option Json)}
    (hkeys : (entries.map Prod.fst).Nodup) (hentry : (key, some value) ∈ entries)
    (members : Members) : count key (putAll entries members) = 1 := by
  induction entries generalizing members with
  | nil => cases hentry
  | cons entry entries ih =>
      obtain ⟨hhead, htail⟩ := List.nodup_cons.mp hkeys
      rcases List.mem_cons.mp hentry with rfl | hmem
      · rw [putAll_cons, count_putAll_of_notMem hhead, count_put_self]
      · exact ih htail hmem _

end Json
