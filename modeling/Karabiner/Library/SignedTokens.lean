import Mathlib.Algebra.BigOperators.Group.List.Basic
import Mathlib.Data.Finsupp.Weight
import Mathlib.Data.List.Pairwise
import Mathlib.Data.List.Perm.Basic
import Mathlib.Tactic.Linarith

/-!
# Lists of signed tokens

A *token* has a key and a weight `+1` or `-1`.  Two tokens are opposite when they have one key
and their weights cancel.  A list that is kept free of opposite tokens by removing a new token
together with the one it cancels (`cancel`) is a representation of an integer counter for each
key, up to the order of its entries:

* `total` — the counter of a key;
* `total_cancel` — adding a token adds its weight to its key's counter and nothing else;
* `total_eq_zero_iff` — a counter is zero exactly when no token of its key is left, so an empty
  list of tokens and one that sums to zero are the same thing;
* `perm_of_total_eq` — the counters determine the list up to a permutation.
-/

namespace SignedTokens

variable {α κ : Type*} [DecidableEq κ]

/-- Tokens: a key, and a weight that is `1` or `-1`; the two together determine the token. -/
structure Signed (key : α → κ) (weight : α → ℤ) : Prop where
  weight_eq (a : α) : weight a = 1 ∨ weight a = -1
  ext {a b : α} (hkey : key a = key b) (hweight : weight a = weight b) : a = b

/-- Two tokens that cancel each other. -/
def Opposite (key : α → κ) (weight : α → ℤ) (a b : α) : Prop :=
  key a = key b ∧ weight a + weight b = 0

instance (key : α → κ) (weight : α → ℤ) (a b : α) : Decidable (Opposite key weight a b) :=
  inferInstanceAs (Decidable (_ ∧ _))

omit [DecidableEq κ] in
theorem Opposite.symm {key : α → κ} {weight : α → ℤ} {a b : α}
    (h : Opposite key weight a b) : Opposite key weight b a :=
  ⟨h.1.symm, by rw [add_comm]; exact h.2⟩

/-- No two entries of the list are opposite. -/
def Reduced (key : α → κ) (weight : α → ℤ) (l : List α) : Prop :=
  l.Pairwise fun a b => ¬ Opposite key weight a b

/-- Add `x` to the list, or remove the first entry opposite to it. -/
def cancel (key : α → κ) (weight : α → ℤ) (l : List α) (x : α) : List α :=
  if l.any (fun y => Opposite key weight y x) then l.eraseP (fun y => Opposite key weight y x)
  else l ++ [x]

/-- The counter of `k`: the sum of the weights of the tokens with that key. -/
def total (key : α → κ) (weight : α → ℤ) (l : List α) (k : κ) : ℤ :=
  ((l.filter fun a => key a = k).map weight).sum

variable {key : α → κ} {weight : α → ℤ}

@[simp] theorem total_nil (k : κ) : total key weight [] k = 0 := rfl

theorem total_cons (a : α) (l : List α) (k : κ) :
    total key weight (a :: l) k = (if key a = k then weight a else 0) + total key weight l k := by
  by_cases h : key a = k <;> simp [total, h]

theorem total_append (l l' : List α) (k : κ) :
    total key weight (l ++ l') k = total key weight l k + total key weight l' k := by
  simp [total]

/-- A filter that keeps all tokens of one key, or none of them, keeps that key's counter or
clears it. -/
theorem total_filter {l : List α} {p : α → Bool} {k : κ} {b : Bool}
    (hp : ∀ a ∈ l, key a = k → p a = b) :
    total key weight (l.filter p) k = if b then total key weight l k else 0 := by
  induction l with
  | nil => simp
  | cons a l ih =>
      have ih := ih fun a' ha' => hp a' (List.mem_cons_of_mem a ha')
      by_cases hk : key a = k
      · have hpa := hp a List.mem_cons_self hk
        cases b with
        | true => rw [List.filter_cons_of_pos hpa, total_cons, ih, total_cons]; rfl
        | false =>
            rw [List.filter_cons_of_neg (by simp [hpa]), ih]
            rfl
      · by_cases hpa : p a = true
        · rw [List.filter_cons_of_pos hpa, total_cons, ih, total_cons, if_neg hk]
          split_ifs <;> omega
        · rw [List.filter_cons_of_neg hpa, ih, total_cons, if_neg hk, zero_add]

/-! ### Reduced lists -/

omit [DecidableEq κ] in
theorem Reduced.sublist {l l' : List α} (h : Reduced key weight l) (hsub : l'.Sublist l) :
    Reduced key weight l' :=
  List.Pairwise.sublist hsub h

omit [DecidableEq κ] in
/-- In a reduced list no two entries are opposite, in either order. -/
theorem Reduced.not_opposite (signed : Signed key weight) {l : List α}
    (h : Reduced key weight l) {a b : α} (ha : a ∈ l) (hb : b ∈ l) :
    ¬ Opposite key weight a b := by
  have : Std.Symm fun a b => ¬ Opposite key weight a b := ⟨fun _ _ hab hba => hab hba.symm⟩
  refine List.Pairwise.forall_of_forall (fun a _ hself => ?_) h ha hb
  rcases signed.weight_eq a with hw | hw <;> have := hself.2 <;> omega

omit [DecidableEq κ] in
/-- In a reduced list two tokens of one key are the same token. -/
theorem Reduced.eq_of_key_eq (signed : Signed key weight) {l : List α}
    (h : Reduced key weight l) {a b : α} (ha : a ∈ l) (hb : b ∈ l) (hkey : key a = key b) :
    a = b := by
  refine signed.ext hkey ?_
  have hne := h.not_opposite signed ha hb
  rcases signed.weight_eq a with hwa | hwa <;> rcases signed.weight_eq b with hwb | hwb
  · rw [hwa, hwb]
  · exact absurd ⟨hkey, by omega⟩ hne
  · exact absurd ⟨hkey, by omega⟩ hne
  · rw [hwa, hwb]

/-- The list splits at the token that `x` cancels. -/
theorem cancel_cases (l : List α) (x : α) :
    (∃ y a b, l = a ++ y :: b ∧ Opposite key weight y x ∧
        (∀ z ∈ a, ¬ Opposite key weight z x) ∧ cancel key weight l x = a ++ b) ∨
      (∀ y ∈ l, ¬ Opposite key weight y x) ∧ cancel key weight l x = l ++ [x] := by
  by_cases h : ∃ y ∈ l, Opposite key weight y x
  · obtain ⟨y, hy, hop⟩ := h
    obtain ⟨z, a, b, hbefore, hz, hl, herase⟩ :=
      List.exists_of_eraseP (p := fun y => decide (Opposite key weight y x)) hy (by simpa using hop)
    refine Or.inl ⟨z, a, b, hl, by simpa using hz, fun w hw => by simpa using hbefore w hw, ?_⟩
    rw [cancel, if_pos (by simpa using ⟨y, hy, hop⟩), herase]
  · refine Or.inr ⟨fun y hy hop => h ⟨y, hy, hop⟩, ?_⟩
    rw [cancel, if_neg (by simpa using h)]

theorem Reduced.cancel {l : List α} (h : Reduced key weight l) (x : α) :
    Reduced key weight (cancel key weight l x) := by
  rcases @cancel_cases _ _ _ key weight l x with
    ⟨y, a, b, hl, -, -, heq⟩ | ⟨hnone, heq⟩
  · rw [heq]
    refine h.sublist ?_
    rw [hl]
    exact (List.sublist_cons_self y b).append_left a
  · rw [heq]
    refine List.pairwise_append.mpr ⟨h, by simp, fun y hy z hz => ?_⟩
    rw [List.mem_singleton.mp hz]
    exact hnone y hy

/-- **Adding a token adds its weight to its own counter.** -/
theorem total_cancel (l : List α) (x : α) (k : κ) :
    total key weight (cancel key weight l x) k =
      total key weight l k + if key x = k then weight x else 0 := by
  rcases @cancel_cases _ _ _ key weight l x with
    ⟨y, a, b, hl, hop, -, heq⟩ | ⟨-, heq⟩
  · rw [heq, hl, total_append, total_append, total_cons]
    have hw := hop.2
    rw [hop.1]
    split_ifs <;> omega
  · rw [heq, total_append, total_cons, total_nil, add_zero]

/-- In a reduced list the counter of a token's key is the token's weight, once for each copy. -/
theorem total_eq_length_mul (signed : Signed key weight) {l : List α}
    (h : Reduced key weight l) {x : α} (hx : x ∈ l) :
    total key weight l (key x) = (l.filter fun a => key a = key x).length * weight x := by
  have hall : ∀ a ∈ l.filter fun a => key a = key x, weight a = weight x := by
    intro a ha
    rw [List.mem_filter, decide_eq_true_eq] at ha
    rw [h.eq_of_key_eq signed ha.1 hx ha.2]
  rw [total, List.map_congr_left hall, List.map_const', List.sum_replicate, nsmul_eq_mul]

/-- **A zero counter means no token**: in a reduced list nothing of that key is left. -/
theorem total_eq_zero_iff (signed : Signed key weight) {l : List α}
    (h : Reduced key weight l) (k : κ) :
    total key weight l k = 0 ↔ ∀ a ∈ l, key a ≠ k := by
  constructor
  · rintro hzero a ha rfl
    rw [total_eq_length_mul signed h ha] at hzero
    have hpos : 0 < (l.filter fun b => key b = key a).length :=
      List.length_pos_of_mem (List.mem_filter.mpr ⟨ha, by simp⟩)
    rcases signed.weight_eq a with hw | hw <;> rw [hw] at hzero <;> omega
  · intro hnone
    have hfilter : l.filter (fun a => key a = k) = [] :=
      List.filter_eq_nil_iff.mpr fun a ha => by simpa using hnone a ha
    simp [total, hfilter]

/-- Removing every copy of `x` from a reduced list clears its key's counter when that counter has
the sign of `x`, and changes nothing otherwise. -/
theorem total_filter_ne [DecidableEq α] (signed : Signed key weight) {l : List α}
    (h : Reduced key weight l) (x : α) (k : κ) :
    total key weight (l.filter (· ≠ x)) k =
      if key x = k ∧ 0 < total key weight l k * weight x then 0 else total key weight l k := by
  by_cases hk : key x = k
  · subst hk
    by_cases hx : x ∈ l
    · have hall : ∀ a ∈ l, key a = key x → decide (a ≠ x) = false := by
        intro a ha hkey
        simpa using h.eq_of_key_eq signed ha hx hkey
      have hpos : 0 < (l.filter fun a => key a = key x).length :=
        List.length_pos_of_mem (List.mem_filter.mpr ⟨hx, by simp⟩)
      have hsign : 0 < total key weight l (key x) * weight x := by
        rw [total_eq_length_mul signed h hx]
        rcases signed.weight_eq x with hw | hw <;> rw [hw] <;> omega
      rw [total_filter hall, if_neg Bool.false_ne_true, if_pos ⟨rfl, hsign⟩]
    · have hall : ∀ a ∈ l, key a = key x → decide (a ≠ x) = true := by
        intro a ha _
        simpa using fun hax : a = x => hx (hax ▸ ha)
      have hsign : ¬ 0 < total key weight l (key x) * weight x := by
        by_cases hy : ∃ y ∈ l, key y = key x
        · obtain ⟨y, hy, hkey⟩ := hy
          have hne : weight y ≠ weight x := fun hw => hx (signed.ext hkey hw ▸ hy)
          rw [← hkey, total_eq_length_mul signed h hy]
          rcases signed.weight_eq y with hwy | hwy <;> rcases signed.weight_eq x with hwx | hwx <;>
            rw [hwy, hwx] at hne ⊢ <;> omega
        · have hzero := (total_eq_zero_iff signed h (key x)).mpr fun a ha hka => hy ⟨a, ha, hka⟩
          rw [hzero]
          omega
      rw [total_filter hall, if_pos rfl, if_neg fun hc => hsign hc.2]
  · have hall : ∀ a ∈ l, key a = k → decide (a ≠ x) = true := by
      intro a _ hka
      simpa using fun hax : a = x => hk (hax ▸ hka)
    rw [total_filter hall, if_pos rfl, if_neg fun hc => hk hc.1]

/-- How often a token occurs in a reduced list, read off its key's counter. -/
theorem count_eq_toNat [DecidableEq α] (signed : Signed key weight) {l : List α}
    (h : Reduced key weight l) (x : α) :
    l.count x = (total key weight l (key x) * weight x).toNat := by
  by_cases hx : ∃ y ∈ l, key y = key x
  · obtain ⟨y, hy, hkey⟩ := hx
    have htotal := total_eq_length_mul signed h hy
    rw [hkey] at htotal
    have hsame : ∀ a ∈ l, key a = key x → a = y := fun a ha hk =>
      h.eq_of_key_eq signed ha hy (hk.trans hkey.symm)
    by_cases hyx : y = x
    · subst hyx
      have hcount : l.count y = (l.filter fun a => key a = key y).length := by
        rw [List.count_eq_length_filter]
        refine congrArg List.length (List.filter_congr fun a ha => ?_)
        by_cases hk : key a = key y
        · simp [hsame a ha hk]
        · have hne : a ≠ y := fun hay => hk (by rw [hay])
          simp [hk, hne]
      rw [hcount, htotal]
      rcases signed.weight_eq y with hw | hw <;> rw [hw] <;> simp
    · have hw : weight y + weight x = 0 := by
        have hne : weight y ≠ weight x := fun hw => hyx (signed.ext hkey hw)
        rcases signed.weight_eq y with hwy | hwy <;> rcases signed.weight_eq x with hwx | hwx <;>
          omega
      have hcount : l.count x = 0 := by
        refine List.count_eq_zero.mpr fun hxl => hyx ?_
        exact (hsame x hxl rfl).symm
      rw [hcount, htotal]
      have hlen : (0 : ℤ) ≤ (l.filter fun a => key a = key x).length := Int.natCast_nonneg _
      rcases signed.weight_eq y with hwy | hwy <;> rcases signed.weight_eq x with hwx | hwx <;>
        rw [hwy, hwx] <;> omega
  · have hnone : ∀ a ∈ l, key a ≠ key x := fun a ha hk => hx ⟨a, ha, hk⟩
    have hzero := (total_eq_zero_iff signed h (key x)).mpr hnone
    have hcount : l.count x = 0 := List.count_eq_zero.mpr fun hxl => hnone x hxl rfl
    rw [hcount, hzero, zero_mul, Int.toNat_zero]

/-- **The counters determine a reduced list up to the order of its entries.** -/
theorem perm_of_total_eq [DecidableEq α] (signed : Signed key weight) {l l' : List α}
    (h : Reduced key weight l) (h' : Reduced key weight l')
    (heq : ∀ k, total key weight l k = total key weight l' k) : l.Perm l' := by
  refine List.perm_iff_count.mpr fun x => ?_
  rw [count_eq_toNat signed h, count_eq_toNat signed h', heq]

/-! ### Summing over an index -/

/-- The sums of the weights of a list, one for each value of an index. -/
noncomputable def tally {ι : Type*} (index : α → ι) (weight : α → ℤ) (l : List α) : ι →₀ ℤ :=
  (l.map fun a => Finsupp.single (index a) (weight a)).sum

theorem tally_apply (l : List α) (k : κ) : tally key weight l k = total key weight l k := by
  induction l with
  | nil => rfl
  | cons a l ih =>
      rw [total_cons, ← ih]
      simp [tally, Finsupp.single_apply]

omit [DecidableEq κ] in
/-- Summing the counters over the index gives the sum of all weights. -/
theorem degree_tally (l : List α) : (tally key weight l).degree = (l.map weight).sum := by
  induction l with
  | nil => simp [tally]
  | cons a l ih =>
      rw [List.map_cons, List.sum_cons, ← ih]
      simp [tally]

end SignedTokens
