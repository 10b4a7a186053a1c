import Karabiner.VectorUtility
import Mathlib.Data.List.Induction
import Mathlib.Data.List.InsertIdx

/-!
# Erase, then insert

`VectorUtility.moveElement` counts with natural numbers.  Here its two loops run over a vector whose
size is a `size_t` and on indices that wrap around, as in the source.

* `map_moveElement` — **no index wraps around**: both models move the same way.
* `moveElement_eq_reinsert` — the swaps add up to taking the element out and inserting it again.
* `moveElement_reinserts` — where the element and all the others are afterwards.
-/

namespace Karabiner.VectorUtility

variable {α : Type}

/-! ### Unsigned indices -/

/-- `size_t`. -/
abbrev SizeT := UInt64

/-- `std::vector`, whose size is a `size_t`. -/
@[ext] structure StdVector (α : Type) where
  elements : List α
  length_lt : elements.length < UInt64.size

namespace StdVector

def size (v : StdVector α) : SizeT := .ofNat v.elements.length

@[simp] theorem toNat_size (v : StdVector α) : v.size.toNat = v.elements.length :=
  UInt64.toNat_ofNat_of_lt' v.length_lt

/-- `std::swap(v[i], v[j])`.  An access beyond the end is `none`. -/
def swap (v : StdVector α) (i j : SizeT) : Option (StdVector α) := do
  let a ← v.elements[i.toNat]?
  let b ← v.elements[j.toNat]?
  return ⟨(v.elements.set i.toNat b).set j.toNat a, by simpa using v.length_lt⟩

/-- The loop of a move towards the end. -/
def moveForward (destinationIndex : SizeT) (v : StdVector α) (i : SizeT) :
    Option (StdVector α) :=
  if i < destinationIndex - 1 then do
    let v ← v.swap i (i + 1)
    moveForward destinationIndex v (i + 1)
  else return v
termination_by (destinationIndex - 1).toNat - i.toNat
decreasing_by
  have hlt : i.toNat < (destinationIndex - 1).toNat := UInt64.lt_iff_toNat_lt.mp ‹_›
  have hbound := (destinationIndex - 1).toNat_lt
  have hnext : (i + 1).toNat = i.toNat + 1 := by
    rw [UInt64.toNat_add]
    exact Nat.mod_eq_of_lt (by simp; omega)
  omega

/-- The loop of a move towards the beginning. -/
def moveBackward (destinationIndex : SizeT) (v : StdVector α) (i : SizeT) :
    Option (StdVector α) :=
  if destinationIndex ≤ i then do
    let v ← v.swap i (i + 1)
    if i = 0 then return v
    else moveBackward destinationIndex v (i - 1)
  else return v
termination_by i.toNat
decreasing_by
  have hne : i.toNat ≠ 0 := fun h => ‹¬i = 0› (UInt64.toNat_inj.mp h)
  rw [UInt64.toNat_sub_of_le i 1 (UInt64.le_iff_toNat_le.mpr (Nat.one_le_iff_ne_zero.mpr hne))]
  simp
  omega

/-- `move_element`. -/
def moveElement (v : StdVector α) (sourceIndex destinationIndex : SizeT) :
    Option (StdVector α) :=
  if v.size ≤ sourceIndex ∨ v.size < destinationIndex then return v
  else if sourceIndex < destinationIndex then moveForward destinationIndex v sourceIndex
  else if destinationIndex < sourceIndex then moveBackward destinationIndex v (sourceIndex - 1)
  else return v

end StdVector

/-! ### No index wraps around -/

/-- Exchanging two neighbours, by their indices. -/
theorem swapNext_eq (v : List α) (i : ℕ) :
    swapNext v i = do
      let a ← v[i]?
      let b ← v[i + 1]?
      return (v.set i b).set (i + 1) a := by
  induction i generalizing v with
  | zero =>
      match v with
      | [] => rfl
      | [_] => rfl
      | _ :: _ :: _ => rfl
  | succ i ih =>
      cases v with
      | nil => rfl
      | cons c v =>
          rw [swapNext, ih]
          cases ha : v[i]? <;> cases hb : v[i + 1]? <;> simp [ha, hb]

namespace StdVector

/-- An index in the vector does not wrap around when it is increased. -/
theorem toNat_succ {v : StdVector α} {i : SizeT} (hi : i.toNat < v.elements.length) :
    (i + 1).toNat = i.toNat + 1 := by
  have hlength : i.toNat + 1 < UInt64.size := by
    have hsize := v.length_lt
    omega
  rw [UInt64.toNat_add]
  exact Nat.mod_eq_of_lt hlength

theorem toNat_pred {i : SizeT} (hi : 0 < i.toNat) : (i - 1).toNat = i.toNat - 1 := by
  rw [UInt64.toNat_sub_of_le i 1 (UInt64.le_iff_toNat_le.mpr hi)]
  rfl

/-- A swap exchanges two elements, if both are there. -/
theorem elements_swap (v : StdVector α) (i j : SizeT) :
    (v.swap i j).map elements = do
      let a ← v.elements[i.toNat]?
      let b ← v.elements[j.toNat]?
      return (v.elements.set i.toNat b).set j.toNat a := by
  unfold swap
  cases v.elements[i.toNat]? with
  | none => rfl
  | some a => cases v.elements[j.toNat]? <;> rfl

/-- A swap with the next element, on the elements. -/
theorem map_swap (v : StdVector α) (i : SizeT) :
    (v.swap i (i + 1)).map elements = swapNext v.elements i.toNat := by
  rw [swapNext_eq, elements_swap]
  cases ha : v.elements[i.toNat]? with
  | none => rfl
  | some a => rw [toNat_succ (List.getElem?_eq_some_iff.mp ha).1]

/-- What a swap needs and leaves, with the successor of its index. -/
theorem swap_eq_some {v v' : StdVector α} {i : SizeT} (h : v.swap i (i + 1) = some v') :
    swapNext v.elements i.toNat = some v'.elements ∧ (i + 1).toNat = i.toNat + 1 := by
  constructor
  · rw [← map_swap, h, Option.map_some]
  · cases ha : v.elements[i.toNat]? with
    | none => simp [swap, ha] at h
    | some a => exact toNat_succ (List.getElem?_eq_some_iff.mp ha).1

/-- A swap with the next element fails at the last one. -/
theorem swap_eq_none {v : StdVector α} {i : SizeT} (h : v.swap i (i + 1) = none) :
    swapNext v.elements i.toNat = none := by
  rw [← map_swap, h, Option.map_none]

/-- The loop forward swaps with the next element again and again. -/
theorem map_moveForward (destinationIndex : SizeT) (v : StdVector α) (i : SizeT) :
    (moveForward destinationIndex v i).map elements =
      (List.range' i.toNat ((destinationIndex - 1).toNat - i.toNat)).foldlM swapNext
        v.elements := by
  fun_induction moveForward destinationIndex v i with
  | case1 v i hlt ih =>
      rw [UInt64.lt_iff_toNat_lt] at hlt
      obtain ⟨n, hn⟩ := Nat.exists_eq_add_of_lt hlt
      rw [show (destinationIndex - 1).toNat - i.toNat = n + 1 by omega, List.range'_succ,
        List.foldlM_cons]
      cases hswap : v.swap i (i + 1) with
      | none => simp [swap_eq_none hswap]
      | some v' =>
          obtain ⟨hnext, hsucc⟩ := swap_eq_some hswap
          have hrest := ih v'
          rw [hsucc, show (destinationIndex - 1).toNat - (i.toNat + 1) = n by omega] at hrest
          simpa [hnext] using hrest
  | case2 v i hge =>
      rw [UInt64.lt_iff_toNat_lt] at hge
      rw [Nat.sub_eq_zero_of_le (Nat.le_of_not_lt hge)]
      rfl

theorem map_moveBackward (destinationIndex : SizeT) (v : StdVector α) (i : SizeT) :
    (moveBackward destinationIndex v i).map elements =
      VectorUtility.moveBackward destinationIndex.toNat v.elements i.toNat := by
  fun_induction moveBackward destinationIndex v i with
  | case1 v i hle ih =>
      rw [VectorUtility.moveBackward, if_pos (UInt64.le_iff_toNat_le.mp hle)]
      cases hswap : v.swap i (i + 1) with
      | none => simp [swap_eq_none hswap]
      | some v' =>
          obtain ⟨hnext, -⟩ := swap_eq_some hswap
          by_cases hzero : i = 0
          · subst hzero
            simp at hnext
            simp [hnext]
          · have hpos : 0 < i.toNat := by
              rw [Nat.pos_iff_ne_zero]
              exact fun h => hzero (UInt64.toNat_inj.mp h)
            obtain ⟨n, hn⟩ := Nat.exists_eq_succ_of_ne_zero (Nat.ne_of_gt hpos)
            have hrest := ih v' hzero
            rw [toNat_pred hpos, hn] at hrest
            rw [hn] at hnext ⊢
            simpa [hnext, hzero] using hrest
  | case2 v i hlt =>
      rw [VectorUtility.moveBackward, if_neg (mt UInt64.le_iff_toNat_le.mpr hlt)]
      rfl

/-- **No index wraps around.** -/
theorem map_moveElement (v : StdVector α) (sourceIndex destinationIndex : SizeT) :
    (v.moveElement sourceIndex destinationIndex).map elements =
      VectorUtility.moveElement v.elements sourceIndex.toNat destinationIndex.toNat := by
  unfold moveElement VectorUtility.moveElement VectorUtility.moveForward
  simp only [UInt64.le_iff_toNat_le, UInt64.lt_iff_toNat_lt, toNat_size]
  split_ifs with hbounds hforward hbackward
  · rfl
  · rw [map_moveForward, toNat_pred (Nat.zero_lt_of_lt hforward)]
  · rw [map_moveBackward, toNat_pred (Nat.zero_lt_of_lt hbackward)]
  · rfl

end StdVector

/-! ### The swaps add up -/

theorem swapNext_append (before after : List α) (a b : α) :
    swapNext (before ++ a :: b :: after) before.length = some (before ++ b :: a :: after) := by
  induction before with
  | nil => rfl
  | cons c before ih => rw [List.cons_append, List.length_cons, swapNext, ih]; rfl

/-- Going up, the element passes one of its successors after the other. -/
theorem foldlM_swapNext_range' (before between after : List α) (a : α) :
    (List.range' before.length between.length).foldlM swapNext
        (before ++ a :: (between ++ after)) =
      some (before ++ between ++ a :: after) := by
  induction between generalizing before with
  | nil => simp
  | cons b between ih =>
      have hstep := swapNext_append before (between ++ after) a b
      have hrest := ih (before ++ [b])
      rw [List.length_append, List.length_singleton] at hrest
      rw [List.length_cons, List.range'_succ, List.foldlM_cons, List.cons_append, hstep]
      simpa using hrest

/-- Going down, it passes one of its predecessors after the other. -/
theorem moveBackward_append (before between after : List α) (a : α)
    (hbetween : between ≠ []) :
    moveBackward before.length (before ++ between ++ a :: after)
        (before.length + between.length - 1) =
      some (before ++ a :: (between ++ after)) := by
  induction between using List.reverseRecOn generalizing after with
  | nil => exact absurd rfl hbetween
  | append_singleton between b ih =>
      have hindex : before.length + (between ++ [b]).length - 1 = (before ++ between).length := by
        simp
      have hstep := swapNext_append (before ++ between) after b a
      rw [hindex, moveBackward, if_pos (by simp),
        show before ++ (between ++ [b]) ++ a :: after = before ++ between ++ b :: a :: after by
          simp, hstep]
      cases hlength : (before ++ between).length with
      | zero =>
          obtain ⟨rfl, rfl⟩ := List.append_eq_nil_iff.mp (List.length_eq_zero_iff.mp hlength)
          rfl
      | succ n =>
          rw [List.length_append] at hlength
          show moveBackward before.length (before ++ between ++ a :: b :: after) n = _
          by_cases hnil : between = []
          · -- The element has arrived: the index is below that of the destination.
            subst hnil
            rw [moveBackward, if_neg (by simp at hlength; omega)]
            simp
          · have hrest := ih (b :: after) hnil
            rw [show before.length + between.length - 1 = n by omega] at hrest
            rw [hrest]
            simp

/-! ### Erase, then insert -/

/-- Where the element that was at `destinationIndex` is once that at `sourceIndex` is taken out. -/
def reinsertIndex (sourceIndex destinationIndex : ℕ) : ℕ :=
  if sourceIndex < destinationIndex then destinationIndex - 1 else destinationIndex

/-- The element at `sourceIndex` is taken out and inserted in front of the one that was at
`destinationIndex`. -/
def reinsert (v : List α) (sourceIndex destinationIndex : ℕ) (h : sourceIndex < v.length) :
    List α :=
  (v.eraseIdx sourceIndex).insertIdx (reinsertIndex sourceIndex destinationIndex) v[sourceIndex]

theorem eraseIdx_append_cons (before after : List α) (a : α) :
    (before ++ a :: after).eraseIdx before.length = before ++ after := by
  rw [List.eraseIdx_append_of_length_le (Nat.le_refl _)]
  simp

theorem insertIdx_append (before after : List α) (a : α) :
    (before ++ after).insertIdx before.length a = before ++ a :: after := by
  induction before with
  | nil => rfl
  | cons b before ih => rw [List.cons_append, List.length_cons, List.insertIdx_succ_cons, ih]; rfl

theorem reinsert_append (before after : List α) (a : α) (destinationIndex : ℕ)
    (h : before.length < (before ++ a :: after).length) :
    reinsert (before ++ a :: after) before.length destinationIndex h =
      (before ++ after).insertIdx (reinsertIndex before.length destinationIndex) a := by
  unfold reinsert
  rw [eraseIdx_append_cons]
  simp

/-- **The swaps take the element out and insert it again.** -/
theorem moveElement_eq_reinsert {v : List α} {sourceIndex destinationIndex : ℕ}
    (hsource : sourceIndex < v.length) (hdestination : destinationIndex ≤ v.length) :
    moveElement v sourceIndex destinationIndex =
      some (reinsert v sourceIndex destinationIndex hsource) := by
  obtain ⟨before, a, after, rfl, rfl⟩ :
      ∃ before a after, v = before ++ a :: after ∧ sourceIndex = before.length :=
    ⟨v.take sourceIndex, v[sourceIndex], v.drop (sourceIndex + 1), by simp, by simp; omega⟩
  rw [reinsert_append, reinsertIndex, moveElement, if_neg (by omega)]
  simp only [List.length_append, List.length_cons] at hdestination
  rcases Nat.lt_trichotomy before.length destinationIndex with hlt | heq | hgt
  · -- The element passes those between it and its destination.
    obtain ⟨between, after, rfl, hlength⟩ : ∃ between after', after = between ++ after' ∧
        between.length = destinationIndex - 1 - before.length :=
      ⟨after.take (destinationIndex - 1 - before.length), _,
        (List.take_append_drop _ _).symm, by simp; omega⟩
    have hindex : destinationIndex - 1 = (before ++ between).length := by
      rw [List.length_append]
      omega
    rw [if_pos hlt, if_pos hlt, moveForward, ← hlength, foldlM_swapNext_range', hindex,
      ← List.append_assoc, insertIdx_append]
  · subst heq
    rw [if_neg (Nat.lt_irrefl _), if_neg (Nat.lt_irrefl _), if_neg (Nat.lt_irrefl _),
      insertIdx_append]
  · obtain ⟨before, between, rfl, rfl⟩ : ∃ before' between, before = before' ++ between ∧
        destinationIndex = before'.length :=
      ⟨before.take destinationIndex, before.drop destinationIndex,
        (List.take_append_drop _ _).symm, by simp; omega⟩
    rw [List.length_append] at hgt
    have hbetween : between ≠ [] := by
      rintro rfl
      simp at hgt
    rw [List.length_append, if_neg (by omega), if_pos hgt, if_neg (by omega),
      moveBackward_append before between after a hbetween, List.append_assoc, insertIdx_append]

/-- An element that is moved in front of itself or of its successor stays where it is. -/
theorem reinsert_eq_self {v : List α} {sourceIndex destinationIndex : ℕ}
    (hsource : sourceIndex < v.length)
    (h : destinationIndex = sourceIndex ∨ destinationIndex = sourceIndex + 1) :
    reinsert v sourceIndex destinationIndex hsource = v := by
  have hindex : reinsertIndex sourceIndex destinationIndex = sourceIndex := by
    unfold reinsertIndex
    split_ifs <;> omega
  rw [reinsert, hindex]
  exact List.insertIdx_eraseIdx_getElem hsource

/-- What a list has become when the element at `sourceIndex` stands in front of the one that was at
`destinationIndex`.  Where there was none, it stands at the end. -/
structure Reinserted (v : List α) (sourceIndex destinationIndex : ℕ) (v' : List α) : Prop where
  element : v'[reinsertIndex sourceIndex destinationIndex]? = v[sourceIndex]?
  successor : destinationIndex ≠ sourceIndex →
    v'[reinsertIndex sourceIndex destinationIndex + 1]? = v[destinationIndex]?
  others : v'.eraseIdx (reinsertIndex sourceIndex destinationIndex) = v.eraseIdx sourceIndex

/-- The reinsertion has all that the specification asks for. -/
theorem reinserted_reinsert {v : List α} {sourceIndex destinationIndex : ℕ}
    (hsource : sourceIndex < v.length) (hdestination : destinationIndex ≤ v.length) :
    Reinserted v sourceIndex destinationIndex
      (reinsert v sourceIndex destinationIndex hsource) where
  element := by
    have hindex : reinsertIndex sourceIndex destinationIndex ≤ (v.eraseIdx sourceIndex).length := by
      rw [List.length_eraseIdx_of_lt hsource, reinsertIndex]
      split_ifs <;> omega
    rw [reinsert, List.getElem?_insertIdx_self, if_pos hindex, List.getElem?_eq_getElem hsource]
  successor hne := by
    rw [reinsert, List.getElem?_insertIdx_of_gt (Nat.lt_add_one _), Nat.add_sub_cancel,
      List.getElem?_eraseIdx]
    rcases Nat.lt_or_ge sourceIndex destinationIndex with hlt | hge
    · rw [show reinsertIndex sourceIndex destinationIndex = destinationIndex - 1 from if_pos hlt,
        if_neg (by omega), Nat.sub_add_cancel (by omega)]
    · rw [show reinsertIndex sourceIndex destinationIndex = destinationIndex from
        if_neg (by omega), if_pos (by omega)]
  others := List.eraseIdx_insertIdx_self _

/-- **`move_element` is erase, then insert.**  No access is out of bounds; an index that is out of
range leaves the vector as it is. -/
theorem StdVector.moveElement_reinserts (v : StdVector α)
    (sourceIndex destinationIndex : SizeT) :
    ∃ v', v.moveElement sourceIndex destinationIndex = some v' ∧
      (sourceIndex < v.size → destinationIndex ≤ v.size →
        Reinserted v.elements sourceIndex.toNat destinationIndex.toNat v'.elements ∧
          ∀ hsource : sourceIndex.toNat < v.elements.length,
            v'.elements =
              reinsert v.elements sourceIndex.toNat destinationIndex.toNat hsource) ∧
      (destinationIndex.toNat = sourceIndex.toNat ∨
          destinationIndex.toNat = sourceIndex.toNat + 1 → v' = v) ∧
      (¬(sourceIndex < v.size ∧ destinationIndex ≤ v.size) → v' = v) := by
  have hmap := v.map_moveElement sourceIndex destinationIndex
  simp only [UInt64.lt_iff_toNat_lt, UInt64.le_iff_toNat_le, toNat_size]
  by_cases hrange : sourceIndex.toNat < v.elements.length ∧
      destinationIndex.toNat ≤ v.elements.length
  · obtain ⟨hsource, hdestination⟩ := hrange
    rw [moveElement_eq_reinsert hsource hdestination, Option.map_eq_some_iff] at hmap
    obtain ⟨v', hmove, helements⟩ := hmap
    refine ⟨v', hmove, fun _ _ => ⟨?_, fun _ => helements⟩, fun h => ?_, fun h => ?_⟩
    · rw [helements]
      exact reinserted_reinsert hsource hdestination
    · ext1
      rw [helements, reinsert_eq_self hsource h]
    · exact absurd ⟨hsource, hdestination⟩ h
  · refine ⟨v, ?_, fun hsource hdestination => absurd ⟨hsource, hdestination⟩ hrange,
      fun _ => rfl, fun _ => rfl⟩
    unfold moveElement
    refine if_pos ?_
    rw [UInt64.le_iff_toNat_le, UInt64.lt_iff_toNat_lt, toNat_size]
    omega

end Karabiner.VectorUtility
