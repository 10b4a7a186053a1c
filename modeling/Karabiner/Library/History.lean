import Mathlib.Data.List.Induction

/-!
# What a history says about its past

A history is the list of the inputs of a run so far.  `Since P Q is` says that `P` happened at some
point of the history `is` and that `Q` has held of every input after it; `P` may look at the part
of the history before that point.

`Always P is` says that `P` held at every point of the history.

* `since_concat`, `always_concat` — how the next input changes them, the rules that proofs by
  induction on a run need.
-/

namespace History

variable {ι : Type*}

/-- At some point `P` held, and since then `Q` has. -/
def Since (P : List ι → ι → Prop) (Q : ι → Prop) (is : List ι) : Prop :=
  ∃ before i after, is = before ++ i :: after ∧ P before i ∧ ∀ j ∈ after, Q j

@[simp] theorem not_since_nil (P : List ι → ι → Prop) (Q : ι → Prop) : ¬ Since P Q [] := by
  rintro ⟨before, i, after, h, -, -⟩
  simp at h

/-- **The next input**: either `P` holds of it, or `P` held before and `Q` holds of it. -/
theorem since_concat (P : List ι → ι → Prop) (Q : ι → Prop) (is : List ι) (i : ι) :
    Since P Q (is ++ [i]) ↔ P is i ∨ Since P Q is ∧ Q i := by
  constructor
  · rintro ⟨before, j, after, h, hP, hQ⟩
    cases after using List.reverseRecOn with
    | nil =>
        obtain ⟨rfl, hi⟩ := List.append_inj' h rfl
        obtain rfl : i = j := by simpa using hi
        exact .inl hP
    | append_singleton after k =>
        rw [← List.cons_append, ← List.append_assoc] at h
        obtain ⟨rfl, hk⟩ := List.append_inj' h rfl
        obtain rfl : i = k := by simpa using hk
        exact .inr ⟨⟨before, j, after, rfl, hP, fun x hx => hQ x (by simp [hx])⟩, hQ i (by simp)⟩
  · rintro (hP | ⟨⟨before, j, after, rfl, hP, hQ⟩, hi⟩)
    · exact ⟨is, i, [], rfl, hP, by simp⟩
    · refine ⟨before, j, after ++ [i], by simp, hP, fun x hx => ?_⟩
      rcases List.mem_append.mp hx with hx | hx
      · exact hQ x hx
      · obtain rfl : x = i := by simpa using hx
        exact hi

/-- What has held since may be stated otherwise for the inputs of the history. -/
theorem since_congr {P : List ι → ι → Prop} {Q Q' : ι → Prop} {is : List ι}
    (h : ∀ i ∈ is, (Q i ↔ Q' i)) : Since P Q is ↔ Since P Q' is := by
  refine exists_congr fun before => exists_congr fun i => exists_congr fun after => ?_
  refine and_congr_right fun his => and_congr_right fun _ => forall₂_congr fun j hj => h j ?_
  rw [his]
  exact List.mem_append_right _ (List.mem_cons_of_mem _ hj)

/-- At every point `P` held. -/
def Always (P : List ι → ι → Prop) (is : List ι) : Prop :=
  ∀ before i after, is = before ++ i :: after → P before i

@[simp] theorem always_nil (P : List ι → ι → Prop) : Always P [] := by
  intro before i after h
  simp at h

theorem always_iff_not_since (P : List ι → ι → Prop) (is : List ι) :
    Always P is ↔ ¬ Since (fun before i => ¬ P before i) (fun _ => True) is := by
  simp only [Always, Since, not_exists, not_and, implies_true, and_true, not_not]

theorem always_concat (P : List ι → ι → Prop) (is : List ι) (i : ι) :
    Always P (is ++ [i]) ↔ Always P is ∧ P is i := by
  rw [always_iff_not_since, always_iff_not_since, since_concat]
  tauto

end History
