import Mathlib.Data.List.Nodup
import Mathlib.Data.List.Sort
import Mathlib.Order.Basic

/-!
# Ordered maps

A map that is enumerated in the order of its keys: a list of entries with increasing keys, which
the structure carries.

* `insert`, `insertAll`, `erase`, `restrict` — assigning entries, removing one, and the entries of
  some keys.
* `ext_mem` — **maps with the same entries are equal.**
* `restrict_insert_of_pos`, `restrict_insert_of_neg` — how the entries of some keys change.
-/

/-- A map that is enumerated in the order of its keys. -/
structure OrderedMap (κ : Type*) (α : Type*) [LinearOrder κ] where
  entries : List (κ × α) := []
  sorted : entries.Pairwise fun e f => e.1 < f.1 := by exact List.Pairwise.nil

namespace OrderedMap

variable {κ α : Type*} [LinearOrder κ]

/-- **Maps with the same entries are equal.** -/
theorem ext_mem {m m' : OrderedMap κ α} (h : ∀ e, e ∈ m.entries ↔ e ∈ m'.entries) : m = m' := by
  have hnodup (n : OrderedMap κ α) : n.entries.Nodup :=
    n.sorted.imp fun hlt heq => absurd (congrArg Prod.fst heq) hlt.ne
  have hentries : m.entries = m'.entries :=
    ((List.perm_ext_iff_of_nodup (hnodup m) (hnodup m')).mpr h).eq_of_pairwise
      (fun e f _ _ hef hfe => absurd hfe hef.not_gt) m.sorted m'.sorted
  cases m
  cases m'
  congr

/-- Assign an entry of a list in the order of the keys. -/
def insertInto (key : κ) (value : α) : List (κ × α) → List (κ × α)
  | [] => [(key, value)]
  | e :: entries =>
    if key < e.1 then (key, value) :: e :: entries
    else if key = e.1 then (key, value) :: entries
    else e :: insertInto key value entries

theorem mem_insertInto {key : κ} {value : α} {entries : List (κ × α)}
    (hsorted : entries.Pairwise fun e f => e.1 < f.1) {e : κ × α} :
    e ∈ insertInto key value entries ↔ e = (key, value) ∨ e.1 ≠ key ∧ e ∈ entries := by
  induction entries with
  | nil => simp [insertInto]
  | cons head entries ih =>
      obtain ⟨hhead, htail⟩ := List.pairwise_cons.mp hsorted
      have hrest (hle : key ≤ head.1) (he : e ∈ entries) : e.1 ≠ key :=
        (hle.trans_lt (hhead e he)).ne'
      unfold insertInto
      split_ifs with hlt heq
      · rw [List.mem_cons, List.mem_cons]
        refine or_congr_right ⟨fun he => ⟨?_, he⟩, fun he => he.2⟩
        rcases he with rfl | he
        · exact hlt.ne'
        · exact hrest hlt.le he
      · rw [List.mem_cons, List.mem_cons]
        refine or_congr_right ⟨fun he => ⟨hrest heq.le he, .inr he⟩, ?_⟩
        rintro ⟨hne, rfl | he⟩
        · exact absurd heq.symm hne
        · exact he
      · rw [List.mem_cons, List.mem_cons, ih htail]
        constructor
        · rintro (rfl | hself | ⟨hne, he⟩)
          · exact .inr ⟨Ne.symm heq, .inl rfl⟩
          · exact .inl hself
          · exact .inr ⟨hne, .inr he⟩
        · rintro (hself | ⟨hne, rfl | he⟩)
          · exact .inr (.inl hself)
          · exact .inl rfl
          · exact .inr (.inr ⟨hne, he⟩)

theorem sorted_insertInto (key : κ) (value : α) {entries : List (κ × α)}
    (hsorted : entries.Pairwise fun e f => e.1 < f.1) :
    (insertInto key value entries).Pairwise fun e f => e.1 < f.1 := by
  induction entries with
  | nil => exact List.pairwise_singleton _ _
  | cons head entries ih =>
      obtain ⟨hhead, htail⟩ := List.pairwise_cons.mp hsorted
      unfold insertInto
      split_ifs with hlt heq
      · refine List.pairwise_cons.mpr ⟨fun e he => ?_, hsorted⟩
        rcases List.mem_cons.mp he with rfl | he
        · exact hlt
        · exact hlt.trans (hhead e he)
      · exact List.pairwise_cons.mpr ⟨fun e he => heq ▸ hhead e he, htail⟩
      · refine List.pairwise_cons.mpr ⟨fun e he => ?_, ih htail⟩
        rcases (mem_insertInto htail).mp he with rfl | ⟨-, he⟩
        · exact lt_of_le_of_ne (not_lt.mp hlt) (Ne.symm heq)
        · exact hhead e he

/-- Assign an entry. -/
def insert (key : κ) (value : α) (m : OrderedMap κ α) : OrderedMap κ α where
  entries := insertInto key value m.entries
  sorted := sorted_insertInto key value m.sorted

@[simp] theorem mem_insert {key : κ} {value : α} {m : OrderedMap κ α} {e : κ × α} :
    e ∈ (m.insert key value).entries ↔ e = (key, value) ∨ e.1 ≠ key ∧ e ∈ m.entries :=
  mem_insertInto m.sorted

/-- Remove an entry. -/
def erase (key : κ) (m : OrderedMap κ α) : OrderedMap κ α where
  entries := m.entries.filter fun e => e.1 ≠ key
  sorted := m.sorted.filter _

/-- The entries of some keys. -/
def restrict (p : κ → Bool) (m : OrderedMap κ α) : OrderedMap κ α where
  entries := m.entries.filter fun e => p e.1
  sorted := m.sorted.filter _

@[simp] theorem mem_restrict {p : κ → Bool} {m : OrderedMap κ α} {e : κ × α} :
    e ∈ (m.restrict p).entries ↔ e ∈ m.entries ∧ p e.1 = true :=
  List.mem_filter

/-- An entry of one of the keys. -/
theorem restrict_insert_of_pos {p : κ → Bool} {key : κ} (hkey : p key = true) (value : α)
    (m : OrderedMap κ α) : (m.insert key value).restrict p = (m.restrict p).insert key value := by
  refine ext_mem fun e => ?_
  rw [mem_restrict, mem_insert, mem_insert, mem_restrict]
  constructor
  · rintro ⟨rfl | ⟨hne, he⟩, hp⟩
    · exact .inl rfl
    · exact .inr ⟨hne, he, hp⟩
  · rintro (rfl | ⟨hne, he, hp⟩)
    · exact ⟨.inl rfl, hkey⟩
    · exact ⟨.inr ⟨hne, he⟩, hp⟩

/-- An entry of another key. -/
theorem restrict_insert_of_neg {p : κ → Bool} {key : κ} (hkey : p key = false) (value : α)
    (m : OrderedMap κ α) : (m.insert key value).restrict p = m.restrict p := by
  refine ext_mem fun e => ?_
  rw [mem_restrict, mem_insert, mem_restrict]
  constructor
  · rintro ⟨rfl | ⟨-, he⟩, hp⟩
    · exact absurd hp (by simp [hkey])
    · exact ⟨he, hp⟩
  · rintro ⟨he, hp⟩
    refine ⟨.inr ⟨?_, he⟩, hp⟩
    rintro rfl
    exact absurd hp (by simp [hkey])

/-- Assign entries, one after another. -/
def insertAll (updates : List (κ × α)) (m : OrderedMap κ α) : OrderedMap κ α :=
  updates.foldl (fun m e => m.insert e.1 e.2) m

/-- Entries with different keys are all there, and the others with their keys are not. -/
theorem mem_insertAll {updates : List (κ × α)} (hnodup : (updates.map Prod.fst).Nodup)
    {m : OrderedMap κ α} {e : κ × α} :
    e ∈ (m.insertAll updates).entries ↔
      e ∈ updates ∨ e.1 ∉ updates.map Prod.fst ∧ e ∈ m.entries := by
  induction updates generalizing m with
  | nil => simp [insertAll]
  | cons head updates ih =>
      obtain ⟨hhead, htail⟩ := List.nodup_cons.mp hnodup
      show e ∈ ((m.insert head.1 head.2).insertAll updates).entries ↔ _
      rw [ih htail, mem_insert, List.map_cons, List.mem_cons, List.mem_cons, not_or]
      constructor
      · rintro (he | ⟨hnot, rfl | ⟨hne, he⟩⟩)
        · exact .inl (.inr he)
        · exact .inl (.inl rfl)
        · exact .inr ⟨⟨hne, hnot⟩, he⟩
      · rintro ((rfl | he) | ⟨⟨hne, hnot⟩, he⟩)
        · exact .inr ⟨hhead, .inl rfl⟩
        · exact .inl he
        · exact .inr ⟨hnot, .inr ⟨hne, he⟩⟩

/-- Entries of other keys. -/
theorem restrict_insertAll_of_neg {p : κ → Bool} {updates : List (κ × α)}
    (hupdates : ∀ e ∈ updates, p e.1 = false) (m : OrderedMap κ α) :
    (m.insertAll updates).restrict p = m.restrict p := by
  induction updates generalizing m with
  | nil => rfl
  | cons head updates ih =>
      show ((m.insert head.1 head.2).insertAll updates).restrict p = _
      rw [ih (fun e he => hupdates e (List.mem_cons_of_mem head he)),
        restrict_insert_of_neg (hupdates head List.mem_cons_self)]

end OrderedMap
