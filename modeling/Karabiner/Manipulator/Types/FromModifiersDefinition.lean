import Karabiner.Manipulator.Types

/-!
# Testing the modifiers of `from`

`test_modifiers` decides whether the pressed modifiers are those a rule asks for, and returns those
that stand for its mandatory modifiers.  The flags it looks at are the ten between `zero` and
`end_`; the modifier `end_`, which stands for no flag, is not looked at.

* `testModifiers_eq_none_iff` — **when the test fails.**
* `mem_of_testModifiers_eq_some` — which flags it returns.
-/

namespace Karabiner.FromModifiersDefinition

variable {d : FromModifiersDefinition} {manager : ModifierFlagManager}

/-- The modifier has a pressed flag. -/
def Pressed (manager : ModifierFlagManager) (m : Modifier) : Prop :=
  ∃ flag ∈ m.getModifierFlags, manager.isPressed flag = true

/-- The first of the flags of a modifier that is pressed. -/
def firstPressed (manager : ModifierFlagManager) (m : Modifier) : Option ModifierFlag :=
  m.getModifierFlags.find? manager.isPressed

theorem firstPressed_eq_none_iff {m : Modifier} :
    firstPressed manager m = none ↔ ¬ Pressed manager m := by
  simp [firstPressed, Pressed]

theorem isPressed_of_firstPressed {m : Modifier} {flag : ModifierFlag}
    (h : firstPressed manager m = some flag) : manager.isPressed flag = true :=
  List.find?_some h

/-- No modifier stands for `zero`. -/
theorem firstPressed_ne_zero {m : Modifier} {flag : ModifierFlag}
    (h : firstPressed manager m = some flag) : flag ≠ .zero := by
  rintro rfl
  exact absurd (List.mem_of_find?_eq_some h) (by cases m <;> decide)

theorem testModifier_eq {m : Modifier} (hany : m ≠ .any) :
    testModifier manager m =
      ((firstPressed manager m).isSome, (firstPressed manager m).getD .zero) := by
  unfold testModifier firstPressed
  rw [if_neg hany]
  cases m.getModifierFlags.find? manager.isPressed <;> rfl

/-- A flag is inserted into a set of flags. -/
theorem mem_insertFlag {flag other : ModifierFlag} {flags : List ModifierFlag}
    (hzero : flag ≠ .zero) :
    other ∈ (if flag ≠ .zero && flag ∉ flags then flags ++ [flag] else flags) ↔
      other ∈ flags ∨ other = flag := by
  by_cases hmem : flag ∈ flags
  · have hif : (flag ≠ .zero && flag ∉ flags) = false := by simp [hmem]
    rw [hif]
    refine ⟨.inl, ?_⟩
    rintro (hother | rfl)
    · exact hother
    · exact hmem
  · have hif : (flag ≠ .zero && flag ∉ flags) = true := by simp [hmem, hzero]
    rw [hif]
    simp

/-- **The loop over the mandatory modifiers** fails at a modifier without a pressed flag. -/
theorem testMandatoryModifiers_eq_none_iff (hany : .any ∉ d.mandatoryModifiers)
    (ms : List Modifier) (flags : List ModifierFlag) :
    d.testMandatoryModifiers manager ms flags = none ↔
      ∃ m ∈ ms, m ∈ d.mandatoryModifiers ∧ ¬ Pressed manager m := by
  induction ms generalizing flags with
  | nil => simp [testMandatoryModifiers]
  | cons m ms ih =>
      rw [testMandatoryModifiers, List.exists_mem_cons_iff]
      by_cases hm : m ∈ d.mandatoryModifiers
      · have hne : m ≠ .any := fun h => hany (h ▸ hm)
        rw [if_pos hm, testModifier_eq hne]
        cases hfirst : firstPressed manager m with
        | none =>
            have hpressed := firstPressed_eq_none_iff.mp hfirst
            simp [hm, hpressed]
        | some flag =>
            have hpressed : Pressed manager m := by
              by_contra hnot
              rw [firstPressed_eq_none_iff.mpr hnot] at hfirst
              cases hfirst
            refine (ih _).trans ?_
            simp [hpressed]
      · rw [if_neg hm, ih]
        simp [hm]

/-- It collects the first pressed flag of each. -/
theorem mem_testMandatoryModifiers (hany : .any ∉ d.mandatoryModifiers) {ms : List Modifier}
    {flags result : List ModifierFlag}
    (h : d.testMandatoryModifiers manager ms flags = some result) {flag : ModifierFlag} :
    flag ∈ result ↔ flag ∈ flags ∨
      ∃ m ∈ ms, m ∈ d.mandatoryModifiers ∧ firstPressed manager m = some flag := by
  induction ms generalizing flags with
  | nil =>
      obtain rfl : flags = result := by simpa [testMandatoryModifiers] using h
      simp
  | cons m ms ih =>
      rw [testMandatoryModifiers] at h
      rw [List.exists_mem_cons_iff]
      by_cases hm : m ∈ d.mandatoryModifiers
      · have hne : m ≠ .any := fun h => hany (h ▸ hm)
        rw [if_pos hm, testModifier_eq hne] at h
        cases hfirst : firstPressed manager m with
        | none =>
            rw [hfirst] at h
            exact absurd h (by simp)
        | some first =>
            rw [hfirst] at h
            rw [ih h, Option.getD_some, mem_insertFlag (firstPressed_ne_zero hfirst), or_assoc]
            refine or_congr_right (or_congr_left ?_)
            simp [hm, eq_comm]
      · rw [if_neg hm] at h
        rw [ih h]
        simp [hm]

theorem mem_modifierAll {m : Modifier} : m ∈ Modifier.all ↔ m ≠ .end_ := by
  cases m <;> decide

theorem mem_modifierFlags {flag : ModifierFlag} :
    flag ∈ modifierFlags ↔ flag ≠ .zero ∧ flag ≠ .end_ := by
  cases flag <;> decide

/-- A flag is extra when no modifier of the rule stands for it. -/
theorem mem_extraModifierFlags {flag : ModifierFlag} :
    flag ∈ d.extraModifierFlags ↔ flag ∈ modifierFlags ∧
      ∀ m, m ∈ d.mandatoryModifiers ∨ m ∈ d.optionalModifiers → flag ∉ m.getModifierFlags := by
  unfold extraModifierFlags
  rw [List.mem_filter]
  refine and_congr_right fun _ => ?_
  simp only [Bool.not_eq_true', List.any_eq_false, Bool.and_eq_true, Bool.or_eq_true,
    decide_eq_true_eq, not_and, mem_modifierAll]
  constructor
  · intro h m hm
    -- The loop erases the flags of the modifiers before `end_`, and `end_` has none.
    by_cases hend : m = .end_
    · rw [hend]
      exact List.not_mem_nil
    · exact h m hend hm
  · exact fun h m _ hm => h m hm

/-- **When the test fails**, for a rule that does not ask for any modifiers: a mandatory modifier
has no pressed flag, or a flag is pressed that no modifier of the rule stands for. -/
theorem testModifiers_eq_none_iff (hany : .any ∉ d.mandatoryModifiers) :
    d.testModifiers manager = none ↔
      (∃ m ∈ d.mandatoryModifiers, m ≠ .end_ ∧ ¬ Pressed manager m) ∨
      .any ∉ d.optionalModifiers ∧ ∃ flag ∈ modifierFlags, manager.isPressed flag = true ∧
        ∀ m, m ∈ d.mandatoryModifiers ∨ m ∈ d.optionalModifiers → flag ∉ m.getModifierFlags := by
  have hmandatory : d.testMandatoryModifiers manager Modifier.all [] = none ↔
      ∃ m ∈ d.mandatoryModifiers, m ≠ .end_ ∧ ¬ Pressed manager m := by
    rw [testMandatoryModifiers_eq_none_iff hany]
    simp only [mem_modifierAll]
    exact exists_congr fun m => and_left_comm
  have hextra : (.any ∉ d.optionalModifiers && d.extraModifierFlags.any manager.isPressed) = true ↔
      .any ∉ d.optionalModifiers ∧ ∃ flag ∈ modifierFlags, manager.isPressed flag = true ∧
        ∀ m, m ∈ d.mandatoryModifiers ∨ m ∈ d.optionalModifiers → flag ∉ m.getModifierFlags := by
    rw [Bool.and_eq_true, decide_eq_true_eq, List.any_eq_true]
    simp only [mem_extraModifierFlags]
    refine and_congr_right fun _ => exists_congr fun flag => ?_
    rw [and_assoc, and_comm (b := manager.isPressed flag = true)]
  unfold testModifiers
  rw [if_neg hany, ← hmandatory, ← hextra]
  cases d.testMandatoryModifiers manager Modifier.all [] with
  | none => simp
  | some flags =>
      dsimp only
      split_ifs with hif
      · exact iff_of_true rfl (.inr hif)
      · exact iff_of_false not_false (not_or.mpr ⟨not_false, hif⟩)

/-- **Which flags the test returns**: for each mandatory modifier the first of its flags that is
pressed. -/
theorem mem_of_testModifiers_eq_some (hany : .any ∉ d.mandatoryModifiers)
    {flags : List ModifierFlag} (h : d.testModifiers manager = some flags) {flag : ModifierFlag} :
    flag ∈ flags ↔ ∃ m ∈ d.mandatoryModifiers, firstPressed manager m = some flag := by
  unfold testModifiers at h
  rw [if_neg hany] at h
  cases hmandatory : d.testMandatoryModifiers manager Modifier.all [] with
  | none =>
      rw [hmandatory] at h
      exact absurd h (by simp)
  | some collected =>
      rw [hmandatory] at h
      dsimp only at h
      split_ifs at h
      obtain rfl := Option.some.inj h
      rw [mem_testMandatoryModifiers hany hmandatory]
      simp only [List.not_mem_nil, false_or, mem_modifierAll]
      refine exists_congr fun m => ⟨fun ⟨_, hm, hfirst⟩ => ⟨hm, hfirst⟩, fun ⟨hm, hfirst⟩ => ?_⟩
      -- The loop does not reach `end_`, which has no flag that could be pressed.
      refine ⟨?_, hm, hfirst⟩
      rintro rfl
      cases hfirst

/-- A rule that asks for any modifiers gets all pressed flags. -/
theorem testModifiers_of_any (hany : .any ∈ d.mandatoryModifiers) :
    d.testModifiers manager = some (modifierFlags.filter manager.isPressed) := if_pos hany

/-- **`test_modifiers` implements the declared rule**, on the flags between `zero` and `end_` and
with `end_` ignored among the modifiers. -/
theorem testModifiers_rule (d : FromModifiersDefinition) (manager : ModifierFlagManager) :
    (.any ∈ d.mandatoryModifiers → ∃ flags, d.testModifiers manager = some flags ∧
      ∀ flag, flag ∈ flags ↔
        (flag ≠ .zero ∧ flag ≠ .end_) ∧ manager.isPressed flag = true) ∧
    (.any ∉ d.mandatoryModifiers →
      (d.testModifiers manager = none ↔
        (∃ m ∈ d.mandatoryModifiers, m ≠ .end_ ∧
          ∀ flag ∈ m.getModifierFlags, manager.isPressed flag = false) ∨
        .any ∉ d.optionalModifiers ∧ ∃ flag, (flag ≠ .zero ∧ flag ≠ .end_) ∧
          manager.isPressed flag = true ∧
          ∀ m, m ∈ d.mandatoryModifiers ∨ m ∈ d.optionalModifiers →
            flag ∉ m.getModifierFlags) ∧
      ∀ flags, d.testModifiers manager = some flags →
        (∀ flag, flag ∈ flags ↔
          ∃ m ∈ d.mandatoryModifiers, m.getModifierFlags.find? manager.isPressed = some flag) ∧
        ∀ flag ∈ flags, manager.isPressed flag = true) := by
  refine ⟨fun hany => ⟨_, testModifiers_of_any hany, fun flag => ?_⟩, fun hany => ⟨?_, ?_⟩⟩
  · rw [List.mem_filter, mem_modifierFlags]
  · rw [testModifiers_eq_none_iff hany]
    simp only [mem_modifierFlags, Pressed, not_exists, not_and, Bool.not_eq_true]
  · intro flags h
    refine ⟨fun flag => mem_of_testModifiers_eq_some hany h, fun flag hflag => ?_⟩
    obtain ⟨m, -, hfirst⟩ := (mem_of_testModifiers_eq_some hany h).mp hflag
    exact isPressed_of_firstPressed hfirst

/-- The modifier `end_` has no pressed flag, and the test does not fail. -/
theorem testModifiers_end :
    ¬ ∀ (d : FromModifiersDefinition) (manager : ModifierFlagManager),
      .any ∉ d.mandatoryModifiers →
        (d.testModifiers manager = none ↔
          (∃ m ∈ d.mandatoryModifiers, ∀ flag ∈ m.getModifierFlags,
            manager.isPressed flag = false) ∨
          .any ∉ d.optionalModifiers ∧ ∃ flag, manager.isPressed flag = true ∧
            ∀ m, m ∈ d.mandatoryModifiers ∨ m ∈ d.optionalModifiers →
              flag ∉ m.getModifierFlags) := by
  intro h
  have hend := h ⟨{.end_}, ∅⟩ ⟨[]⟩ (by decide)
  have hnone := hend.mpr (.inl ⟨.end_, by decide, by decide⟩)
  exact absurd hnone (by decide)

end Karabiner.FromModifiersDefinition
