import Mathlib.Order.OrderIsoNat

/-!
# Lexicographic descent

A system of several parts that may only pass work on to later parts is measured by a list, one
natural number for each part: a step that lowers the measure of a part may raise the measures of
the parts behind it.

* `LexLe` — the lexicographic order on lists of the same length.
* `LexLe.eventually_const` — **a descending sequence is constant from some point on**, so a system
  in which every state but the quiet ones makes progress becomes quiet.
-/

/-- The lexicographic order on lists of the same length. -/
def LexLe : List ℕ → List ℕ → Prop
  | [], [] => True
  | x :: xs, y :: ys => x < y ∨ x = y ∧ LexLe xs ys
  | _, _ => False

namespace LexLe

theorem refl (xs : List ℕ) : LexLe xs xs := by
  induction xs with
  | nil => exact trivial
  | cons x xs ih => exact Or.inr ⟨rfl, ih⟩

theorem trans {xs ys zs : List ℕ} (h : LexLe xs ys) (h' : LexLe ys zs) : LexLe xs zs := by
  induction xs generalizing ys zs with
  | nil =>
      cases ys with
      | nil => exact h'
      | cons => exact h.elim
  | cons x xs ih =>
      cases ys with
      | nil => exact h.elim
      | cons y ys =>
          cases zs with
          | nil => exact h'.elim
          | cons z zs =>
              rcases h with hlt | ⟨rfl, h⟩
              · rcases h' with hlt' | ⟨rfl, -⟩
                · exact Or.inl (hlt.trans hlt')
                · exact Or.inl hlt
              · rcases h' with hlt' | ⟨rfl, h'⟩
                · exact Or.inl hlt'
                · exact Or.inr ⟨rfl, ih h h'⟩

theorem antisymm {xs ys : List ℕ} (h : LexLe xs ys) (h' : LexLe ys xs) : xs = ys := by
  induction xs generalizing ys with
  | nil =>
      cases ys with
      | nil => rfl
      | cons => exact h.elim
  | cons x xs ih =>
      cases ys with
      | nil => exact h.elim
      | cons y ys =>
          rcases h with hlt | ⟨rfl, h⟩
          · rcases h' with hlt' | ⟨rfl, -⟩
            · exact absurd (hlt.trans hlt') (lt_irrefl x)
            · exact absurd hlt (lt_irrefl _)
          · rcases h' with hlt' | ⟨-, h'⟩
            · exact absurd hlt' (lt_irrefl x)
            · rw [ih h h']

/-- A list whose first element has not grown. -/
theorem cons_of_le {x y : ℕ} (h : x ≤ y) (xs : List ℕ) : LexLe (x :: xs) (y :: xs) := by
  rcases h.lt_or_eq with hlt | rfl
  · exact Or.inl hlt
  · exact refl _

/-- A natural number that never grows is constant from some point on. -/
theorem nat_eventually_const {f : ℕ → ℕ} (h : ∀ r, f (r + 1) ≤ f r) :
    ∃ n, ∀ r, n ≤ r → f r = f n := by
  let descending : ℕ →o ℕᵒᵈ := ⟨fun r => OrderDual.toDual (f r), monotone_nat_of_le_succ h⟩
  obtain ⟨n, hn⟩ := WellFoundedGT.monotone_chain_condition descending
  exact ⟨n, fun r hr => OrderDual.toDual.injective (hn r hr).symm⟩

/-- **A descending sequence of lists of one length is constant from some point on.** -/
theorem eventually_const {n : ℕ} {p : ℕ → List ℕ} (hlength : ∀ r, (p r).length = n)
    (h : ∀ r, LexLe (p (r + 1)) (p r)) : ∃ N, ∀ r, N ≤ r → p r = p N := by
  induction n generalizing p with
  | zero =>
      have hnil (r : ℕ) : p r = [] := List.length_eq_zero_iff.mp (hlength r)
      exact ⟨0, fun r _ => (hnil r).trans (hnil 0).symm⟩
  | succ n ih =>
      have hcons (r : ℕ) : ∃ x xs, p r = x :: xs ∧ xs.length = n := by
        obtain ⟨x, xs, hp⟩ := List.exists_cons_of_length_eq_add_one (hlength r)
        exact ⟨x, xs, hp, by simpa [hp] using hlength r⟩
      choose head tail hp htail using hcons
      have hstep (r : ℕ) : head (r + 1) < head r ∨
          head (r + 1) = head r ∧ LexLe (tail (r + 1)) (tail r) := by
        have hr := h r
        rw [hp, hp r] at hr
        exact hr
      obtain ⟨N₁, hN₁⟩ := nat_eventually_const fun r => (hstep r).elim le_of_lt fun h => h.1.le
      -- from there on the tails descend
      obtain ⟨N₂, hN₂⟩ := ih (p := fun r => tail (N₁ + r)) (fun r => htail _) fun r => by
        have hheads : head (N₁ + r + 1) = head (N₁ + r) :=
          (hN₁ _ (by omega)).trans (hN₁ _ (by omega)).symm
        rcases hstep (N₁ + r) with hlt | ⟨-, hle⟩
        · exact absurd hheads hlt.ne
        · exact hle
      refine ⟨N₁ + N₂, fun r hr => ?_⟩
      obtain ⟨k, rfl⟩ := Nat.exists_eq_add_of_le (show N₁ ≤ r by omega)
      rw [hp, hp (N₁ + N₂), hN₁ _ (by omega), hN₁ (N₁ + N₂) (by omega), hN₂ k (by omega)]

end LexLe
