import Karabiner.Manipulator.MouseMotionToScroll.Stopping

/-!
# The direction and the sign of scrolling

While the direction is horizontal nothing happens on the vertical axis and the other way round, and
what is carried from tick to tick in a momentum never opposes the total it came from.  Both hold
because a chunk clears what it turns around before it adds to it, and because rounding, converting
and reducing keep signs.

* `Locked` — the invariant, kept by every job (`locked_step`).
* `Axis.move_aligned` — what a tick moves on one axis.
* `scrolling_keeps_direction` — **the direction lock and the sign of every scroll event**.
-/

namespace Karabiner.MouseMotionToScroll

/-- The numbers have opposite signs. -/
def Opposite (a b : ℤ) : Prop := 0 < a ∧ b < 0 ∨ a < 0 ∧ 0 < b

/-! ### Arithmetic -/

/-- The cast of a double to an integer rounds towards zero, so it keeps the sign from below. -/
theorem truncate_nonneg {x : ℚ} (hx : 0 ≤ x) : 0 ≤ Json.truncate x :=
  Int.tdiv_nonneg (Rat.num_nonneg.mpr hx) (Int.natCast_nonneg _)

theorem truncate_nonpos {x : ℚ} (hx : x ≤ 0) : Json.truncate x ≤ 0 := by
  have hneg := truncate_nonneg (neg_nonneg.mpr hx)
  unfold Json.truncate at *
  rw [Rat.neg_num, Rat.neg_den, Int.neg_tdiv] at hneg
  omega

/-- Rounding away from zero keeps the sign, too. -/
theorem roundUp_nonneg {value : ℚ} (hvalue : 0 ≤ value) : 0 ≤ roundUp value := by
  unfold roundUp
  split_ifs with hpos hneg
  · exact (Int.ceil_pos.mpr hpos).le
  · exact absurd hneg (not_lt.mpr hvalue)
  · exact le_rfl

/-- The same for a value that is not positive. -/
theorem roundUp_nonpos {value : ℚ} (hvalue : value ≤ 0) : roundUp value ≤ 0 := by
  unfold roundUp
  split_ifs with hpos hneg
  · exact absurd hpos (not_lt.mpr hvalue)
  · have hceil : ⌈value⌉ ≤ 0 := Int.ceil_le.mpr (by exact_mod_cast hvalue)
    omega
  · exact le_rfl

/-- What is positive after the reduction was positive before. -/
theorem pos_of_reduce_pos {value amount : ℤ} (h : 0 < reduce value amount) : 0 < value := by
  unfold reduce at h
  split_ifs at h <;> omega

/-- What is negative after the reduction was negative before. -/
theorem neg_of_reduce_neg {value amount : ℤ} (h : reduce value amount < 0) : value < 0 := by
  unfold reduce at h
  split_ifs at h <;> omega

/-- A number that does not oppose a total does not oppose what is left of it. -/
theorem not_opposite_reduce {a total : ℤ} (h : ¬ Opposite a total) (amount : ℤ) :
    ¬ Opposite a (reduce total amount) := by
  rintro (⟨ha, hreduced⟩ | ⟨ha, hreduced⟩)
  · exact h (.inl ⟨ha, neg_of_reduce_neg hreduced⟩)
  · exact h (.inr ⟨ha, pos_of_reduce_pos hreduced⟩)

/-! ### One axis -/

namespace Axis

variable (options : Options) {a : Axis}

/-- Nothing is on the axis. -/
def Still (a : Axis) : Prop := a.total = 0 ∧ a.momentum = 0

/-- The momentum does not oppose the total. -/
def Aligned (a : Axis) : Prop := ¬ Opposite a.momentum a.total

/-- An axis without momentum has nothing to be aligned with. -/
theorem aligned_of_momentum_eq_zero (h : a.momentum = 0) : a.Aligned := by
  unfold Aligned Opposite
  omega

theorem Still.aligned (h : a.Still) : a.Aligned := aligned_of_momentum_eq_zero h.2

/-- A value may be added: the axis has been cleared, or the value has the sign of the total. -/
def Accepts (a : Axis) (value : ℤ) : Prop :=
  value = 0 ∨ a.momentum = 0 ∨ 0 < a.total ∧ 0 < value ∨ a.total < 0 ∧ value < 0

/-- A value that does not change the sign is accepted. -/
theorem accepts_of_not_signChanges {value : ℤ} (h : a.signChanges value = false) :
    a.Accepts value := by
  unfold signChanges at h
  by_cases hvalue : value = 0
  · exact .inl hvalue
  have hsign : makeSign a.total = makeSign value := by simpa [hvalue] using h
  unfold makeSign at hsign
  unfold Accepts
  split_ifs at hsign <;> omega

/-- **Adding what the axis accepts**, or a smaller part of it, keeps it aligned. -/
theorem aligned_add {value added : ℤ} (h : a.Aligned) (haccepts : a.Accepts value)
    (hzero : value = 0 → added = 0) (hpos : 0 < value → 0 ≤ added)
    (hneg : value < 0 → added ≤ 0) : { a with total := a.total + added }.Aligned := by
  unfold Accepts at haccepts
  unfold Aligned Opposite at *
  dsimp only
  omega

/-- Making the total as large as the least value keeps its sign. -/
theorem aligned_enlarge {leastValue : ℤ} (h : a.Aligned) : (a.enlarge leastValue).Aligned := by
  unfold Aligned Opposite enlarge at *
  dsimp only
  split_ifs <;> omega

theorem still_enlarge {leastValue : ℤ} (h : a.Still) : (a.enlarge leastValue).Still := by
  obtain ⟨htotal, hmomentum⟩ := h
  unfold Still enlarge
  simp [htotal, hmomentum]

/-- **A tick on one axis**: what leaves and what stays have the sign of the total. -/
theorem move_aligned (h : a.Aligned) {scale : ℚ} (hscale : 0 ≤ scale) :
    (a.move options scale).1.Aligned ∧ ¬ Opposite (a.move options scale).2 a.total := by
  unfold move
  dsimp only
  -- The momentum and the part of the total that joins it have the sign of the total.
  rcases lt_trichotomy a.total 0 with htotal | htotal | htotal
  · have htotalQ : (a.total : ℚ) ≤ 0 := by exact_mod_cast htotal.le
    have hround := roundUp_nonpos (mul_nonpos_of_nonpos_of_nonneg htotalQ hscale)
    have hmomentum : a.momentum ≤ 0 := by
      unfold Aligned Opposite at h
      omega
    obtain ⟨hleft, hresult⟩ := convert_of_nonpos options (add_nonpos hmomentum hround)
    unfold Aligned Opposite
    dsimp only
    omega
  · unfold Aligned Opposite
    dsimp only
    omega
  · have htotalQ : (0 : ℚ) ≤ a.total := by exact_mod_cast htotal.le
    have hround := roundUp_nonneg (mul_nonneg htotalQ hscale)
    have hmomentum : 0 ≤ a.momentum := by
      unfold Aligned Opposite at h
      omega
    obtain ⟨hleft, hresult⟩ := convert_of_nonneg options (add_nonneg hmomentum hround)
    unfold Aligned Opposite
    dsimp only
    omega

/-- Nothing moves on an axis with nothing on it. -/
theorem move_still (h : a.Still) (scale : ℚ) :
    (a.move options scale).1.Still ∧ (a.move options scale).2 = 0 := by
  obtain ⟨htotal, hmomentum⟩ := h
  have hround : roundUp ((a.total : ℚ) * scale) = 0 := by
    rw [htotal, Int.cast_zero, zero_mul]
    exact if_neg (lt_irrefl _)
  unfold move
  rw [hround, hmomentum, add_zero, convert_zero]
  exact ⟨⟨htotal, rfl⟩, rfl⟩

end Axis

namespace Counter

variable {parameters : CoreConfiguration.ComplexModificationsParameters} {options : Options}

/-! ### The invariant -/

/-- What holds also while the direction is being found. -/
structure HalfLocked (c : Counter) : Prop where
  horizontal : c.direction = .horizontal → c.y.Still
  vertical : c.direction = .vertical → c.x.Still
  x : c.x.Aligned
  y : c.y.Aligned

/-- **The invariant**: an axis on which the counter does not scroll is still, and no momentum
opposes its total. -/
structure Locked (c : Counter) : Prop extends HalfLocked c where
  none : c.direction = .none → c.x.Still ∧ c.y.Still

/-- The invariant is about the direction and the axes only. -/
theorem Locked.congr {c c' : Counter} (h : c.Locked) (hdirection : c'.direction = c.direction)
    (hx : c'.x = c.x) (hy : c'.y = c.y) : c'.Locked := by
  constructor
  · constructor
    · rw [hdirection, hy]
      exact h.horizontal
    · rw [hdirection, hx]
      exact h.vertical
    · rw [hx]
      exact h.x
    · rw [hy]
      exact h.y
  · rw [hdirection, hx, hy]
    exact h.none

/-- A counter with two axes that are still is locked in whatever direction. -/
theorem locked_of_still {c : Counter} (hx : c.x.Still) (hy : c.y.Still) : c.Locked :=
  ⟨⟨fun _ => hy, fun _ => hx, hx.aligned, hy.aligned⟩, fun _ => ⟨hx, hy⟩⟩

/-! ### Chunks -/

/-- Forgetting the direction clears the axis that has been locked out. -/
theorem halfLocked_resetDirection {c : Counter} (h : c.HalfLocked) :
    c.resetDirection.HalfLocked := by
  have hnone : ({ c with direction := .none } : Counter).HalfLocked :=
    ⟨by simp, by simp, h.x, h.y⟩
  unfold resetDirection
  dsimp only
  split
  · split_ifs
    · exact hnone
    · exact h
  · split_ifs
    · exact hnone
    · exact h
  · exact h

/-- **Choosing a direction locks the counter**: the other axis is still. -/
theorem locked_setDirection {c : Counter} (h : c.HalfLocked) (chunk : Chunk) :
    (c.setDirection options chunk).Locked := by
  unfold setDirection
  by_cases hnone : c.direction = .none
  · rw [if_pos hnone]
    exact locked_of_still ⟨rfl, rfl⟩ ⟨rfl, rfl⟩
  · rw [if_neg hnone]
    exact ⟨h, fun hdirection => absurd hdirection hnone⟩

/-- Afterwards there is a direction. -/
theorem direction_setDirection (chunk : Chunk) (c : Counter) :
    (c.setDirection options chunk).direction ≠ .none := by
  unfold setDirection
  by_cases hnone : c.direction = .none
  · rw [if_pos hnone]
    dsimp only
    split_ifs <;> simp
  · rwa [if_neg hnone]

/-- A turn of the x axis starts it anew, with nothing left of the old sign. -/
theorem locked_turnX {c : Counter} (h : c.Locked) (value : ℤ) :
    (c.turnX options value).Locked := by
  unfold turnX
  split_ifs
  · have hclear : c.x.clear.Still := ⟨rfl, rfl⟩
    exact ⟨⟨h.horizontal, fun _ => hclear, hclear.aligned, h.y⟩,
      fun hnone => ⟨hclear, (h.none hnone).2⟩⟩
  · exact h

theorem locked_turnY {c : Counter} (h : c.Locked) (value : ℤ) :
    (c.turnY options value).Locked := by
  unfold turnY
  split_ifs
  · have hclear : c.y.clear.Still := ⟨rfl, rfl⟩
    exact ⟨⟨fun _ => hclear, h.vertical, h.x, hclear.aligned⟩,
      fun hnone => ⟨(h.none hnone).1, hclear⟩⟩
  · exact h

/-- Turning does not change which axis is counted. -/
theorem direction_turns (x y : ℤ) (c : Counter) :
    ((c.turnX options x).turnY options y).direction = c.direction := by
  unfold turnX turnY
  split_ifs <;> rfl

/-- After the turns both axes accept the values of the chunk. -/
theorem accepts_turns (options : Options) (x y : ℤ) (c : Counter) :
    ((c.turnX options x).turnY options y).x.Accepts x ∧
      ((c.turnX options x).turnY options y).y.Accepts y := by
  have hx : (c.turnX options x).x.Accepts x := by
    unfold turnX
    split_ifs with hchanges
    · exact .inr (.inl rfl)
    · exact Axis.accepts_of_not_signChanges (Bool.not_eq_true _ ▸ hchanges)
  have hxy : ((c.turnX options x).turnY options y).x = (c.turnX options x).x := by
    unfold turnY
    split_ifs <;> rfl
  refine ⟨hxy ▸ hx, ?_⟩
  unfold turnY
  split_ifs with hchanges
  · exact .inr (.inl rfl)
  · exact Axis.accepts_of_not_signChanges (Bool.not_eq_true _ ▸ hchanges)

/-- What a chunk may do to a counter with a direction: only along it, and only what the axes
accept. -/
structure Fits (c : Counter) (x y : ℤ) : Prop where
  direction : c.direction ≠ .none
  horizontal : c.direction = .horizontal → y = 0
  vertical : c.direction = .vertical → x = 0
  x : c.x.Accepts x
  y : c.y.Accepts y

section Multiplier

variable (hrate :
  0 < parameters.makeMouseMotionToScrollSpeedRate * options.speedMultiplier)

include hrate

/-- The product with a positive rate keeps the sign of a value. -/
theorem multiply_nonneg {value : ℤ} (hvalue : 0 < value) : 0 ≤ multiply parameters options value :=
  truncate_nonneg (mul_nonneg (by exact_mod_cast hvalue.le) hrate.le)

/-- The same for a value that is not positive. -/
theorem multiply_nonpos {value : ℤ} (hvalue : value < 0) : multiply parameters options value ≤ 0 :=
  truncate_nonpos (mul_nonpos_of_nonpos_of_nonneg (by exact_mod_cast hvalue.le) hrate.le)

omit hrate in
theorem multiply_zero {value : ℤ} (hvalue : value = 0) : multiply parameters options value = 0 := by
  unfold multiply
  rw [hvalue, Int.cast_zero, zero_mul]
  rfl

/-- **Adding a chunk** of the sign that the axes have, or of any sign to axes that are still. -/
theorem locked_add {c : Counter} (h : c.Locked) {x y : ℤ} (hfits : c.Fits x y) :
    (c.add (multiply parameters options x) (multiply parameters options y)).Locked where
  horizontal hdirection := by
    obtain ⟨htotal, hmomentum⟩ := h.horizontal hdirection
    refine ⟨?_, hmomentum⟩
    show c.y.total + multiply parameters options y = 0
    rw [htotal, multiply_zero (hfits.horizontal hdirection), add_zero]
  vertical hdirection := by
    obtain ⟨htotal, hmomentum⟩ := h.vertical hdirection
    refine ⟨?_, hmomentum⟩
    show c.x.total + multiply parameters options x = 0
    rw [htotal, multiply_zero (hfits.vertical hdirection), add_zero]
  x := Axis.aligned_add h.x hfits.x multiply_zero (multiply_nonneg hrate) (multiply_nonpos hrate)
  y := Axis.aligned_add h.y hfits.y multiply_zero (multiply_nonneg hrate) (multiply_nonpos hrate)
  none hnone := absurd hnone hfits.direction

omit hrate in
/-- The least values enlarge the totals without turning them. -/
theorem locked_enlarge (options : Options) {c : Counter} (h : c.Locked) :
    (c.enlarge options).Locked where
  horizontal hdirection := Axis.still_enlarge (h.horizontal hdirection)
  vertical hdirection := Axis.still_enlarge (h.vertical hdirection)
  x := Axis.aligned_enlarge h.x
  y := Axis.aligned_enlarge h.y
  none hnone := ⟨Axis.still_enlarge (h.none hnone).1, Axis.still_enlarge (h.none hnone).2⟩

/-- The totals are raised by a chunk, and then enlarged if it is the initial one. -/
theorem locked_raiseTotals {c : Counter} (h : c.Locked) (initial : Bool) {x y : ℤ}
    (hfits : c.Fits x y) :
    (c.raiseTotals options initial (multiply parameters options x)
      (multiply parameters options y)).Locked := by
  have hadd := locked_add hrate h hfits
  unfold raiseTotals
  dsimp only
  split
  · exact hadd
  · split
    · exact (locked_enlarge options hadd).congr rfl rfl rfl
    · exact hadd.congr rfl rfl rfl

/-- A chunk is applied in the direction of the counter. -/
theorem locked_applyChunk {c : Counter} (h : c.Locked) (hdirection : c.direction ≠ .none)
    (initial : Bool) (x y : ℤ) : (c.applyChunk parameters options initial x y).Locked := by
  unfold applyChunk
  dsimp only
  refine locked_raiseTotals hrate (locked_turnY (locked_turnX h _) _) _ ?_
  -- The value across the direction was set to 0 before the turns.
  obtain ⟨hx, hy⟩ := accepts_turns options (if c.direction = .vertical then 0 else x)
    (if c.direction = .horizontal then 0 else y) c
  refine ⟨?_, ?_, ?_, hx, hy⟩
  · rwa [direction_turns]
  · rw [direction_turns]
    exact fun hhorizontal => if_pos hhorizontal
  · rw [direction_turns]
    exact fun hvertical => if_pos hvertical

/-- A chunk sets the direction if there is none, turns what it has to turn and is then applied. -/
theorem locked_processChunk {c : Counter} (h : c.Locked) (front : TimePoint) :
    (c.processChunk parameters options front).Locked := by
  unfold processChunk
  dsimp only
  refine locked_applyChunk hrate (locked_setDirection (halfLocked_resetDirection ?_) _)
    (direction_setDirection _ _) _ _ _
  -- An initial chunk gives the direction up, and with it what holds along it.
  refine ⟨fun hhorizontal => ?_, fun hvertical => ?_, h.x, h.y⟩
  · dsimp only at hhorizontal
    split_ifs at hhorizontal
    exact h.horizontal hhorizontal
  · dsimp only at hvertical
    split_ifs at hvertical
    exact h.vertical hvertical

/-- All entries that are due. -/
theorem locked_processEntries {c : Counter} (h : c.Locked) (now : TimePoint) :
    (c.processEntries parameters options now).1.Locked := by
  unfold processEntries
  split
  · exact h
  · split_ifs
    · exact h
    · exact locked_processChunk hrate h _

end Multiplier

/-! ### Scrolls -/

/-- A scroll event turns one wheel, along the direction and not against the total. -/
def WheelOn (c : Counter) (motion : PointingMotion) : Prop :=
  motion.x = 0 ∧ motion.y = 0 ∧
    match c.direction with
    | .horizontal =>
      motion.verticalWheel = 0 ∧ motion.horizontalWheel ≠ 0 ∧
        ¬ Opposite motion.horizontalWheel c.x.total
    | .vertical =>
      motion.horizontalWheel = 0 ∧ motion.verticalWheel ≠ 0 ∧
        ¬ Opposite (-motion.verticalWheel) c.y.total
    | .none => False

/-- The scale of a scroll falls with the momentum count, but not below zero. -/
theorem scale_nonneg {c : Counter} (h : 0 ≤ c.momentumCount) : 0 ≤ c.scale options := by
  unfold scale
  split_ifs
  · exact le_rfl
  · exact div_nonneg zero_le_one (by exact_mod_cast h)

/-- **What is posted has the sign of the momentum** and moves the wheel of the locked axis alone. -/
theorem wheelOn_scrollEvent {c : Counter} (h : c.Locked) (hcount : 0 ≤ c.momentumCount)
    {motion : PointingMotion} (hmotion : motion ∈ c.scrollEvent options) : c.WheelOn motion := by
  have hscale : 0 ≤ c.scale options := scale_nonneg hcount
  unfold scrollEvent at hmotion
  dsimp only at hmotion
  split_ifs at hmotion with hscrolls
  · obtain rfl := List.mem_singleton.mp hmotion
    refine ⟨rfl, rfl, ?_⟩
    cases hdirection : c.direction with
    | horizontal =>
        have hy := (Axis.move_still options (h.horizontal hdirection) (c.scale options)).2
        rw [hy] at hscrolls ⊢
        exact ⟨rfl, hscrolls.resolve_right fun hne => hne rfl,
          (Axis.move_aligned options h.x hscale).2⟩
    | vertical =>
        have hx := (Axis.move_still options (h.vertical hdirection) (c.scale options)).2
        rw [hx] at hscrolls ⊢
        dsimp only
        rw [neg_neg]
        exact ⟨rfl, neg_ne_zero.mpr (hscrolls.resolve_left fun hne => hne rfl),
          (Axis.move_aligned options h.y hscale).2⟩
    | none =>
        obtain ⟨hx, hy⟩ := h.none hdirection
        rw [(Axis.move_still options hx _).2, (Axis.move_still options hy _).2] at hscrolls
        exact hscrolls.elim (fun hne => hne rfl) (fun hne => hne rfl)
  · exact absurd hmotion List.not_mem_nil

/-- Reducing the totals brings them nearer to zero, and not beyond. -/
theorem locked_reduceTotals {c : Counter} (h : c.Locked) (hcount : 0 ≤ c.momentumCount)
    (now : TimePoint) : (c.reduceTotals options now).Locked := by
  have hscale : 0 ≤ c.scale options := scale_nonneg hcount
  have hstill {a : Axis} (ha : a.Still) :
      Axis.Still { (a.move options (c.scale options)).1 with
        total := reduce (a.move options (c.scale options)).1.total c.momentumMinus } := by
    obtain ⟨htotal, hmomentum⟩ := (Axis.move_still options ha (c.scale options)).1
    refine ⟨?_, hmomentum⟩
    show reduce _ _ = 0
    rw [htotal, reduce_zero]
  have haligned {a : Axis} (ha : a.Aligned) :
      Axis.Aligned { (a.move options (c.scale options)).1 with
        total := reduce (a.move options (c.scale options)).1.total c.momentumMinus } :=
    not_opposite_reduce (Axis.move_aligned options ha hscale).1 _
  exact ⟨⟨fun hdirection => hstill (h.horizontal hdirection),
    fun hdirection => hstill (h.vertical hdirection), haligned h.x, haligned h.y⟩,
    fun hnone => ⟨hstill (h.none hnone).1, hstill (h.none hnone).2⟩⟩

/-- Moving the totals into the momentum keeps the signs that it moves. -/
theorem locked_moveTotals {c : Counter} (h : c.Locked) (hcount : 0 ≤ c.momentumCount)
    (now : TimePoint) : (c.moveTotals options now).1.Locked := by
  have hreduced : (c.reduceTotals options now).Locked := locked_reduceTotals h hcount now
  unfold moveTotals setMomentumWait
  dsimp only
  split_ifs
  · exact hreduced
  · exact hreduced.congr rfl rfl rfl
  · exact hreduced

/-- What is posted while the totals are moved is the scroll event of the counter as it was. -/
theorem motions_moveTotals (now : TimePoint) (c : Counter) :
    (c.moveTotals options now).2.1 = c.scrollEvent options := by
  unfold moveTotals
  dsimp only
  split_ifs <;> rfl

/-- The total that a scroll leaves is not opposed either. -/
theorem WheelOn.moveTotals {c : Counter} {motion : PointingMotion} (h : c.WheelOn motion)
    (now : TimePoint) : (c.moveTotals options now).1.WheelOn motion := by
  have hmoves := movesTotals_moveTotals options now c
  unfold WheelOn at *
  obtain ⟨hmx, hmy, hwheel⟩ := h
  refine ⟨hmx, hmy, ?_⟩
  rw [hmoves.direction, hmoves.x, hmoves.y]
  cases hdirection : c.direction with
  | horizontal =>
      rw [hdirection] at hwheel
      exact ⟨hwheel.1, hwheel.2.1, not_opposite_reduce hwheel.2.2 _⟩
  | vertical =>
      rw [hdirection] at hwheel
      exact ⟨hwheel.1, hwheel.2.1, not_opposite_reduce hwheel.2.2 _⟩
  | none =>
      rw [hdirection] at hwheel
      exact hwheel

/-- The number of scrolls does not matter for the signs. -/
theorem Locked.count_succ {c : Counter} (h : c.Locked) :
    { c with momentumCount := c.momentumCount + 1 }.Locked :=
  h.congr rfl rfl rfl

/-- One scroll, with the event that it posts. -/
theorem locked_scroll {c : Counter} (h : c.Locked) (hcount : 0 ≤ c.momentumCount)
    (now : TimePoint) : (c.scroll options now).1.Locked := by
  have hsucc : 0 ≤ c.momentumCount + 1 := by omega
  rcases scroll_cases options now c with ⟨-, hscroll⟩ | ⟨-, hscroll⟩ | ⟨-, hscroll⟩
  · rw [hscroll]
    exact h.congr rfl rfl rfl
  · rw [hscroll]
    exact h.count_succ
  · rw [hscroll]
    exact locked_moveTotals h.count_succ hsucc now

/-- **Every scroll event of a scroll** turns one wheel, for the counter before and after it. -/
theorem wheelOn_scroll {c : Counter} (h : c.Locked) (hcount : 0 ≤ c.momentumCount)
    {now : TimePoint} {motion : PointingMotion} (hmotion : motion ∈ (c.scroll options now).2.1) :
    c.WheelOn motion ∧ (c.scroll options now).1.WheelOn motion := by
  have hsucc : 0 ≤ c.momentumCount + 1 := by omega
  rcases scroll_cases options now c with ⟨-, hscroll⟩ | ⟨-, hscroll⟩ | ⟨-, hscroll⟩
  · rw [hscroll] at hmotion
    exact absurd hmotion List.not_mem_nil
  · rw [hscroll] at hmotion
    exact absurd hmotion List.not_mem_nil
  · rw [hscroll, motions_moveTotals] at hmotion
    have hwheel := wheelOn_scrollEvent h.count_succ hsucc hmotion
    rw [hscroll]
    exact ⟨hwheel, hwheel.moveTotals now⟩

/-! ### Runs -/

/-- **Every job keeps the invariant.** -/
theorem locked_step
    (hrate : 0 < parameters.makeMouseMotionToScrollSpeedRate * options.speedMultiplier)
    {c : Counter} (hsound : c.Sound) (h : c.Locked) (i : Input) :
    (c.step parameters options i).1.Locked := by
  cases i with
  | update motion timePoint => exact h.congr rfl rfl rfl
  | asyncReset => exact locked_of_still ⟨rfl, rfl⟩ ⟨rfl, rfl⟩
  | tick now later =>
      have hprocessed : (c.processEntries parameters options now).1.Sound :=
        sound_processEntries hsound now
      have hscrolled :
          ((c.processEntries parameters options now).1.scroll options later).1.Locked :=
        locked_scroll (locked_processEntries hrate h now) hprocessed.count_nonneg later
      exact hscrolled.congr rfl rfl rfl

/-- **The counter is locked** after any updates and jobs. -/
theorem locked_after
    (hrate : 0 < parameters.makeMouseMotionToScrollSpeedRate * options.speedMultiplier)
    (momentumMinus : ℤ) (inputs : List Input) :
    (after parameters options momentumMinus inputs).Locked := by
  have hkeep (c : Counter) (i : Input) (h : c.Sound ∧ c.Locked) :
      (c.step parameters options i).1.Sound ∧ (c.step parameters options i).1.Locked :=
    ⟨sound_step h.1 i, locked_step hrate h.1 h.2 i⟩
  have hinitial : Sound { momentumMinus } ∧ Locked { momentumMinus } :=
    ⟨sound_initial momentumMinus, locked_of_still ⟨rfl, rfl⟩ ⟨rfl, rfl⟩⟩
  exact (Machine.run_invariant hkeep hinitial inputs).2

/-- **The direction lock and the sign of scrolling.**  After any jobs an axis on which the counter
does not scroll has no total and no momentum, no momentum opposes the total of its axis, and every
scroll event of the next tick turns exactly one wheel, that of the direction, and not against the
total of its axis, before the scroll and after it. -/
theorem scrolling_keeps_direction (parameters : CoreConfiguration.ComplexModificationsParameters)
    (options : Options) (momentumMinus : ℤ) (inputs : List Input)
    (hrate : 0 < parameters.makeMouseMotionToScrollSpeedRate * options.speedMultiplier) :
    let c := after parameters options momentumMinus inputs
    (c.direction = .horizontal → c.y.total = 0 ∧ c.y.momentum = 0) ∧
    (c.direction = .vertical → c.x.total = 0 ∧ c.x.momentum = 0) ∧
    (c.direction = .none →
      (c.x.total = 0 ∧ c.x.momentum = 0) ∧ c.y.total = 0 ∧ c.y.momentum = 0) ∧
    ¬ Opposite c.x.momentum c.x.total ∧ ¬ Opposite c.y.momentum c.y.total ∧
    ∀ now later, ∀ motion ∈ (c.tick parameters options now later).2,
      (c.processEntries parameters options now).1.WheelOn motion ∧
        (c.tick parameters options now later).1.WheelOn motion := by
  have hlocked : (after parameters options momentumMinus inputs).Locked :=
    locked_after hrate momentumMinus inputs
  refine ⟨hlocked.horizontal, hlocked.vertical, hlocked.none, hlocked.x, hlocked.y,
    fun now later motion hmotion => ?_⟩
  have hprocessed : ((after parameters options momentumMinus inputs).processEntries
      parameters options now).1.Sound := sound_processEntries (sound_after momentumMinus inputs) now
  exact wheelOn_scroll (locked_processEntries hrate hlocked now) hprocessed.count_nonneg hmotion

/-- It holds for the default options and parameters. -/
theorem scrolling_keeps_direction_default :
    let parameters : CoreConfiguration.ComplexModificationsParameters := .default
    let inputs : List Input := [.update ⟨300, 5, 0, 0⟩ 0, .tick 150 150]
    (after parameters {} 0 inputs).direction = .horizontal ∧
      ¬ Opposite (after parameters {} 0 inputs).x.momentum
        (after parameters {} 0 inputs).x.total := by
  obtain ⟨-, -, -, hx, -⟩ := scrolling_keeps_direction .default {} 0
    [.update ⟨300, 5, 0, 0⟩ 0, .tick 150 150] (by decide +kernel)
  exact ⟨by decide +kernel, hx⟩

end Counter

end Karabiner.MouseMotionToScroll
