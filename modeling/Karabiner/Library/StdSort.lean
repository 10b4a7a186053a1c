import Mathlib.Data.Prod.Lex
import Mathlib.Order.Basic

/-!
# Sorting by a chain of comparisons

`std::sort` rearranges a list so that no element is less than one before it, and promises nothing
about the order of elements of which none is less than the other.  A comparison that looks at one
field after another is the lexicographic order of the fields.

* `StdSort` — a sort for a comparison; `StdSort.ofKey` makes one from a key.
* `Prod.Lex.ite_lt_iff` — one link of a chain of comparisons.
-/

/-- One link of a chain: the first field decides, unless both have the same. -/
theorem Prod.Lex.ite_lt_iff {α β : Type*} [PartialOrder α] [LT β] {a b : α} {x y : β}
    {differ : Prop} [Decidable differ] {less rest : Bool} (hdiffer : differ ↔ a ≠ b)
    (hless : a ≠ b → (less = true ↔ a < b)) (hrest : rest = true ↔ x < y) :
    (if differ then less else rest) = true ↔ toLex (a, x) < toLex (b, y) := by
  rw [Prod.Lex.toLex_lt_toLex]
  by_cases hab : a = b
  · rw [if_neg (fun h => hdiffer.mp h hab), hrest]
    exact ⟨fun h => .inr ⟨hab, h⟩, fun h => h.elim (fun h => absurd hab h.ne) And.right⟩
  · rw [if_pos (hdiffer.mpr hab), hless hab]
    exact ⟨.inl, fun h => h.resolve_right fun h => hab h.1⟩

/-- A sort for a comparison. -/
structure StdSort {α : Type*} (less : α → α → Bool) where
  sort : List α → List α
  perm : ∀ l, (sort l).Perm l
  sorted : ∀ l, (sort l).Pairwise fun a b => less b a = false

namespace StdSort

variable {α κ : Type*} {less : α → α → Bool}

/-- The sort for a comparison of keys. -/
def ofKey [LinearOrder κ] (key : α → κ) (hless : ∀ a b, less a b = true ↔ key a < key b) :
    StdSort less where
  sort l := l.mergeSort fun a b => !less b a
  perm l := List.mergeSort_perm l _
  sorted l := by
    have hle (a b : α) : (!less b a) = true ↔ key a ≤ key b := by
      rw [Bool.not_eq_true', ← Bool.not_eq_true, hless, not_lt]
    have hsorted : (l.mergeSort fun a b => !less b a).Pairwise fun a b => (!less b a) = true := by
      refine List.pairwise_mergeSort (fun a b c hab hbc => ?_) (fun a b => ?_) l
      · exact (hle a c).mpr (((hle a b).mp hab).trans ((hle b c).mp hbc))
      · rw [Bool.or_eq_true, hle, hle]
        exact le_total (key a) (key b)
    exact hsorted.imp fun h => Bool.not_eq_true' _ ▸ h

end StdSort
