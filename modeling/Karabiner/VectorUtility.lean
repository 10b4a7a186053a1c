import Mathlib.Data.List.Perm.Basic

/-!
# Moving an element of a list

`share/vector_utility.hpp`: an element is moved by exchanging it with its neighbours, one after
another.  An access beyond the end of the list is `none`.

* `exists_moveElement` — **no access is out of bounds**, and the result is a permutation.
-/

namespace Karabiner.VectorUtility

variable {α : Type}

/-- `std::swap(v[i], v[i + 1])`. -/
def swapNext : List α → ℕ → Option (List α)
  | a :: b :: v, 0 => some (b :: a :: v)
  | a :: v, i + 1 => (swapNext v i).map (a :: ·)
  | _, _ => none

/-- The loop over the indices from `sourceIndex` below `destinationIndex - 1`. -/
def moveForward (v : List α) (sourceIndex destinationIndex : ℕ) : Option (List α) :=
  (List.range' sourceIndex (destinationIndex - 1 - sourceIndex)).foldlM swapNext v

/-- The loop from index `i` down to `destinationIndex`, which ends at index 0 before it wraps
around. -/
def moveBackward (destinationIndex : ℕ) (v : List α) (i : ℕ) : Option (List α) :=
  if destinationIndex ≤ i then do
    let v ← swapNext v i
    match i with
    | 0 => return v
    | i + 1 => moveBackward destinationIndex v i
  else return v

/-- `move_element`. -/
def moveElement (v : List α) (sourceIndex destinationIndex : ℕ) : Option (List α) :=
  -- The destination is the size when an element is moved to the end.
  if v.length ≤ sourceIndex ∨ v.length < destinationIndex then some v
  else if sourceIndex < destinationIndex then moveForward v sourceIndex destinationIndex
  else if destinationIndex < sourceIndex then moveBackward destinationIndex v (sourceIndex - 1)
  else some v

theorem exists_swapNext {v : List α} {i : ℕ} (hi : i + 1 < v.length) :
    ∃ v', swapNext v i = some v' ∧ v'.Perm v := by
  induction i generalizing v with
  | zero =>
      obtain ⟨a, b, v, rfl⟩ : ∃ a b v', v = a :: b :: v' := by
        match v, hi with
        | a :: b :: v, _ => exact ⟨a, b, v, rfl⟩
      exact ⟨b :: a :: v, rfl, .swap a b v⟩
  | succ i ih =>
      obtain ⟨a, v, rfl⟩ := List.exists_cons_of_length_pos (Nat.zero_lt_of_lt hi)
      obtain ⟨v', hswap, hperm⟩ := ih (Nat.lt_of_succ_lt_succ hi)
      exact ⟨a :: v', by simp [swapNext, hswap], hperm.cons a⟩

theorem exists_foldlM_swapNext {indices : List ℕ} {v : List α}
    (hindices : ∀ i ∈ indices, i + 1 < v.length) :
    ∃ v', indices.foldlM swapNext v = some v' ∧ v'.Perm v := by
  induction indices generalizing v with
  | nil => exact ⟨v, rfl, .refl v⟩
  | cons i indices ih =>
      obtain ⟨hi, hrest⟩ := List.forall_mem_cons.mp hindices
      obtain ⟨v₁, hswap, hperm₁⟩ := exists_swapNext hi
      obtain ⟨v₂, hfold, hperm₂⟩ := ih (v := v₁) (by simpa [hperm₁.length_eq] using hrest)
      exact ⟨v₂, by simp [List.foldlM_cons, hswap, hfold], hperm₂.trans hperm₁⟩

theorem exists_moveBackward (destinationIndex : ℕ) {v : List α} {i : ℕ} (hi : i + 1 < v.length) :
    ∃ v', moveBackward destinationIndex v i = some v' ∧ v'.Perm v := by
  induction i generalizing v with
  | zero =>
      obtain ⟨v', hswap, hperm⟩ := exists_swapNext hi
      unfold moveBackward
      split_ifs
      · exact ⟨v', by simp [hswap], hperm⟩
      · exact ⟨v, rfl, .refl v⟩
  | succ i ih =>
      obtain ⟨v₁, hswap, hperm₁⟩ := exists_swapNext hi
      obtain ⟨v₂, hmove, hperm₂⟩ := ih (v := v₁) (by rw [hperm₁.length_eq]; omega)
      unfold moveBackward
      split_ifs
      · exact ⟨v₂, by simp [hswap, hmove], hperm₂.trans hperm₁⟩
      · exact ⟨v, rfl, .refl v⟩

/-- **No access is out of bounds**, and the elements stay the same. -/
theorem exists_moveElement (v : List α) (sourceIndex destinationIndex : ℕ) :
    ∃ v', moveElement v sourceIndex destinationIndex = some v' ∧ v'.Perm v := by
  unfold moveElement
  split_ifs with hbounds hforward hbackward
  · exact ⟨v, rfl, .refl v⟩
  · refine exists_foldlM_swapNext fun i hi => ?_
    rw [List.mem_range'_1] at hi
    omega
  · exact exists_moveBackward destinationIndex (by omega)
  · exact ⟨v, rfl, .refl v⟩

end Karabiner.VectorUtility
