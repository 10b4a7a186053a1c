import Karabiner.Manipulator.MouseMotionToScroll.Counter
import Mathlib.Data.Prod.Lex
import Mathlib.Tactic.Linarith

/-!
# Scrolling stops

Two stages feed each other: a chunk of motion enlarges the totals and gives up the wait, and a
scroll takes `momentum_minus_` from the totals and then waits longer.  Without new motion the first
stage ends when the entries are used up, which a clock that goes on brings about, and the second
when the totals are, since `momentum_minus_` is at least 1 whenever a total is not 0.

* `Sound` — the invariant of every run (`sound_after`).
* `totalAbs_moveTotals` — a scroll that moves the totals lowers them.
* `tick_descent` — a tick stops the timer or leaves less to do.
* `scrolling_stops` — **the timer stops**, from every state a run reaches.
-/

namespace Karabiner.MouseMotionToScroll

/-! ### Entries are used up -/

theorem Chunk.length_accumulate_le (recent : ℤ) (front : TimePoint) (c : Chunk)
    (entries : List CounterEntry) :
    (c.accumulate recent front entries).entries.length ≤ entries.length := by
  induction entries generalizing c with
  | nil => exact le_rfl
  | cons entry entries ih =>
      rw [accumulate]
      split_ifs
      · exact (ih _).trans (Nat.le_succ _)
      · exact le_rfl

/-- The front entry belongs to its chunk. -/
theorem Chunk.length_accumulate_lt {recent : ℤ} (hrecent : 0 < recent) (c : Chunk)
    (entry : CounterEntry) (entries : List CounterEntry) :
    (c.accumulate recent entry.timePoint (entry :: entries)).entries.length <
      (entry :: entries).length := by
  rw [accumulate, if_pos (by rw [sub_self]; exact hrecent.le)]
  exact Nat.lt_succ_of_le (length_accumulate_le _ _ _ _)

namespace Counter

variable {parameters : CoreConfiguration.ComplexModificationsParameters} {options : Options}

@[simp] theorem entries_turnX (x : ℤ) (c : Counter) : (c.turnX options x).entries = c.entries := by
  unfold turnX
  split_ifs <;> rfl

@[simp] theorem entries_turnY (y : ℤ) (c : Counter) : (c.turnY options y).entries = c.entries := by
  unfold turnY
  split_ifs <;> rfl

@[simp] theorem entries_raiseTotals (initial : Bool) (x y : ℤ) (c : Counter) :
    (c.raiseTotals options initial x y).entries = c.entries := by
  unfold raiseTotals
  dsimp only
  split_ifs <;> rfl

@[simp] theorem entries_applyChunk (initial : Bool) (x y : ℤ) (c : Counter) :
    (c.applyChunk parameters options initial x y).entries = c.entries := by
  simp [applyChunk]

@[simp] theorem entries_resetDirection (c : Counter) : c.resetDirection.entries = c.entries := by
  unfold resetDirection
  split
  · dsimp only
    split_ifs <;> rfl
  · dsimp only
    split_ifs <;> rfl
  · rfl

@[simp] theorem entries_setDirection (chunk : Chunk) (c : Counter) :
    (c.setDirection options chunk).entries = c.entries := by
  unfold setDirection
  split_ifs <;> rfl

/-- **Every chunk takes entries away.** -/
theorem length_entries_processChunk {front : CounterEntry} {rest : List CounterEntry}
    {c : Counter} (h : c.entries = front :: rest) :
    (c.processChunk parameters options front.timePoint).entries.length < c.entries.length := by
  simp only [processChunk, entries_applyChunk, entries_setDirection, entries_resetDirection]
  rw [h]
  exact Chunk.length_accumulate_lt options.recentTimeDuration_pos _ front rest

/-! ### The invariant -/

/-- The bounds of the two counters of `scroll`. -/
structure Bounded (c : Counter) : Prop where
  wait_nonneg : 0 ≤ c.momentumWait
  wait_le : c.momentumWait ≤ 10
  count_nonneg : 0 ≤ c.momentumCount

/-- The counter has scrolled and takes something from the totals. -/
structure Directed (c : Counter) : Prop extends Bounded c where
  direction : c.direction ≠ .none
  minus_pos : 1 ≤ c.momentumMinus

/-- **The invariant.**  `momentum_minus_` is initialized when there is a direction, and before there
is nothing to take it from. -/
structure Sound (c : Counter) : Prop extends Bounded c where
  minus_pos : c.direction ≠ .none → 1 ≤ c.momentumMinus
  total : c.direction = .none → c.x.total = 0 ∧ c.y.total = 0

/-- A counter with a direction is sound. -/
theorem Directed.sound {c : Counter} (h : c.Directed) : c.Sound where
  toBounded := h.toBounded
  minus_pos _ := h.minus_pos
  total hnone := absurd hnone h.direction

/-- A total that is not 0 can be reduced. -/
theorem Sound.one_le_minus {c : Counter} (h : c.Sound) (htotal : c.x.total ≠ 0 ∨ c.y.total ≠ 0) :
    1 ≤ c.momentumMinus := by
  refine h.minus_pos fun hnone => ?_
  obtain ⟨hx, hy⟩ := h.total hnone
  exact htotal.elim (absurd hx) (absurd hy)

/-! ### Chunks -/

/-- Forgetting the direction makes no total larger. -/
theorem bounded_resetDirection {c : Counter} (h : c.Bounded) : c.resetDirection.Bounded := by
  unfold resetDirection
  split
  · dsimp only
    split_ifs
    · exact ⟨h.wait_nonneg, h.wait_le, h.count_nonneg⟩
    · exact h
  · dsimp only
    split_ifs
    · exact ⟨h.wait_nonneg, h.wait_le, h.count_nonneg⟩
    · exact h
  · exact h

/-- Giving up the direction keeps `momentum_minus_`. -/
theorem resetDirection_minus {c : Counter} (h : c.direction ≠ .none → 1 ≤ c.momentumMinus) :
    c.resetDirection.direction ≠ .none → 1 ≤ c.resetDirection.momentumMinus := by
  unfold resetDirection
  split
  · dsimp only
    split_ifs
    · exact fun hdirection => absurd rfl hdirection
    · exact h
  · dsimp only
    split_ifs
    · exact fun hdirection => absurd rfl hdirection
    · exact h
  · exact h

/-- From then on there is a direction. -/
theorem directed_setDirection {c : Counter} (hbounded : c.Bounded)
    (hminus : c.direction ≠ .none → 1 ≤ c.momentumMinus) (chunk : Chunk) :
    (c.setDirection options chunk).Directed := by
  unfold setDirection
  split_ifs with hnone habs
  · exact ⟨⟨hbounded.wait_nonneg, hbounded.wait_le, hbounded.count_nonneg⟩, by simp,
      options.threshold_pos⟩
  · exact ⟨⟨hbounded.wait_nonneg, hbounded.wait_le, hbounded.count_nonneg⟩, by simp,
      options.threshold_pos⟩
  · exact ⟨hbounded, hnone, hminus hnone⟩

/-- A turn keeps the direction. -/
theorem directed_turnX {c : Counter} (h : c.Directed) (x : ℤ) : (c.turnX options x).Directed := by
  unfold turnX
  split_ifs
  · exact ⟨⟨h.wait_nonneg, h.wait_le, h.count_nonneg⟩, h.direction, options.threshold_pos⟩
  · exact h

theorem directed_turnY {c : Counter} (h : c.Directed) (y : ℤ) : (c.turnY options y).Directed := by
  unfold turnY
  split_ifs
  · exact ⟨⟨h.wait_nonneg, h.wait_le, h.count_nonneg⟩, h.direction, options.threshold_pos⟩
  · exact h

/-- The momentum minus is 1 at least, since the scales are. -/
theorem one_le_updateMomentumMinus {c : Counter} (h : 1 ≤ c.momentumMinus) :
    1 ≤ (c.updateMomentumMinus options).momentumMinus := by
  refine le_min h ?_
  split_ifs <;> omega

/-- Raising the totals does not choose another direction. -/
theorem directed_raiseTotals {c : Counter} (h : c.Directed) (initial : Bool) (x y : ℤ) :
    (c.raiseTotals options initial x y).Directed := by
  unfold raiseTotals
  dsimp only
  split
  · exact ⟨⟨h.wait_nonneg, h.wait_le, h.count_nonneg⟩, h.direction, h.minus_pos⟩
  · refine ⟨⟨le_rfl, Int.zero_le_ofNat 10, le_rfl⟩, ?_, one_le_updateMomentumMinus ?_⟩
    · split_ifs <;> exact h.direction
    · split_ifs <;> exact h.minus_pos

theorem directed_applyChunk {c : Counter} (h : c.Directed) (initial : Bool) (x y : ℤ) :
    (c.applyChunk parameters options initial x y).Directed :=
  directed_raiseTotals (directed_turnY (directed_turnX h _) _) _ _ _

/-- After a chunk there is a direction. -/
theorem directed_processChunk {c : Counter} (h : c.Sound) (front : TimePoint) :
    (c.processChunk parameters options front).Directed := by
  unfold processChunk
  dsimp only
  refine directed_applyChunk (directed_setDirection (bounded_resetDirection ?_)
    (resetDirection_minus ?_) _) _ _ _
  · exact ⟨h.wait_nonneg, h.wait_le, h.count_nonneg⟩
  · dsimp only
    split_ifs with hinitial
    · exact fun hdirection => absurd rfl hdirection
    · exact h.minus_pos

/-- The entries are processed until one is recent or none is left. -/
theorem sound_processEntries {c : Counter} (h : c.Sound) (now : TimePoint) :
    (c.processEntries parameters options now).1.Sound := by
  unfold processEntries
  split
  · exact h
  · split_ifs
    · exact h
    · exact (directed_processChunk h _).sound

/-! ### Scrolls -/

/-- Nothing is left to reduce at zero. -/
theorem reduce_zero (amount : ℤ) : reduce 0 amount = 0 := by simp [reduce]

theorem abs_reduce_le {amount : ℤ} (hamount : 1 ≤ amount) (value : ℤ) :
    (reduce value amount).natAbs ≤ value.natAbs := by
  unfold reduce
  split_ifs <;> omega

/-- **A total comes nearer to zero**, unless it is there. -/
theorem abs_reduce_lt {amount value : ℤ} (hamount : 1 ≤ amount) (hvalue : value ≠ 0) :
    (reduce value amount).natAbs < value.natAbs := by
  unfold reduce
  split_ifs <;> omega

/-- `|total_x_| + |total_y_|`. -/
def totalAbs (c : Counter) : ℕ := c.x.total.natAbs + c.y.total.natAbs

/-- All that `moveTotals` leaves as it is, with what it makes of the totals. -/
structure MovesTotals (c c' : Counter) : Prop where
  entries : c'.entries = c.entries
  direction : c'.direction = c.direction
  minus : c'.momentumMinus = c.momentumMinus
  count : c'.momentumCount = c.momentumCount
  wait : c'.momentumWait = c.momentumWait ∨ c'.momentumWait = min c.momentumCount 10
  x : c'.x.total = reduce c.x.total c.momentumMinus
  y : c'.y.total = reduce c.y.total c.momentumMinus

/-- The totals are moved, kept or dropped, as `MovesTotals` says. -/
theorem movesTotals_moveTotals (options : Options) (now : TimePoint) (c : Counter) :
    MovesTotals c (c.moveTotals options now).1 := by
  unfold moveTotals setMomentumWait
  dsimp only
  split_ifs
  · exact ⟨rfl, rfl, rfl, rfl, .inl rfl, rfl, rfl⟩
  · exact ⟨rfl, rfl, rfl, rfl, .inr rfl, rfl, rfl⟩
  · exact ⟨rfl, rfl, rfl, rfl, .inl rfl, rfl, rfl⟩

/-- When nothing is left to scroll, the scroll says so. -/
theorem moveTotals_stops {c : Counter} (hx : c.x.total = 0) (hy : c.y.total = 0)
    (now : TimePoint) : (c.moveTotals options now).2.2 = false := by
  have hreduced : (c.reduceTotals options now).x.total = 0 ∧
      (c.reduceTotals options now).y.total = 0 := by
    constructor
    · show reduce c.x.total c.momentumMinus = 0
      rw [hx, reduce_zero]
    · show reduce c.y.total c.momentumMinus = 0
      rw [hy, reduce_zero]
  unfold moveTotals
  rw [if_pos hreduced]

/-- What is moved into the momentum was bounded as a total. -/
theorem bounded_moveTotals (options : Options) {c : Counter} (h : c.Bounded) (now : TimePoint) :
    (c.moveTotals options now).1.Bounded := by
  have hmoves := movesTotals_moveTotals options now c
  have hcount := h.count_nonneg
  rcases hmoves.wait with hwait | hwait
  · exact ⟨hwait ▸ h.wait_nonneg, hwait ▸ h.wait_le, hmoves.count ▸ hcount⟩
  · exact ⟨hwait ▸ le_min hcount (by decide), hwait ▸ min_le_right _ _, hmoves.count ▸ hcount⟩

/-- **A scroll that moves the totals lowers them**, unless they are 0. -/
theorem totalAbs_moveTotals (options : Options) {c : Counter} (h : c.Sound) (now : TimePoint) :
    (c.moveTotals options now).1.totalAbs < c.totalAbs ∨ c.x.total = 0 ∧ c.y.total = 0 := by
  have hmoves := movesTotals_moveTotals options now c
  unfold totalAbs
  rw [hmoves.x, hmoves.y]
  by_cases hx : c.x.total = 0
  · by_cases hy : c.y.total = 0
    · exact .inr ⟨hx, hy⟩
    · have hminus := h.one_le_minus (.inr hy)
      have hlt := abs_reduce_lt hminus hy
      rw [hx, reduce_zero]
      exact .inl (by omega)
  · have hminus := h.one_le_minus (.inl hx)
    have hlt := abs_reduce_lt hminus hx
    have hle := abs_reduce_le hminus c.y.total
    exact .inl (by omega)

/-- Moving the totals keeps the counter sound. -/
theorem sound_moveTotals {c : Counter} (h : c.Sound) (now : TimePoint) :
    (c.moveTotals options now).1.Sound := by
  have hmoves := movesTotals_moveTotals options now c
  refine ⟨bounded_moveTotals options h.toBounded now, fun hdirection => ?_, fun hnone => ?_⟩
  · rw [hmoves.minus]
    exact h.minus_pos (hmoves.direction ▸ hdirection)
  · obtain ⟨hx, hy⟩ := h.total (hmoves.direction ▸ hnone)
    rw [hmoves.x, hmoves.y, hx, hy, reduce_zero]
    exact ⟨rfl, rfl⟩

/-- The number of scrolls does not matter for the soundness. -/
theorem Sound.count_succ {c : Counter} (h : c.Sound) :
    { c with momentumCount := c.momentumCount + 1 }.Sound :=
  ⟨⟨h.wait_nonneg, h.wait_le, by have := h.count_nonneg; dsimp only; omega⟩, h.minus_pos, h.total⟩

/-- One scroll keeps the counter sound. -/
theorem sound_scroll {c : Counter} (h : c.Sound) (now : TimePoint) :
    (c.scroll options now).1.Sound := by
  rcases scroll_cases options now c with ⟨hwait, hscroll⟩ | ⟨-, hscroll⟩ | ⟨-, hscroll⟩
  · rw [hscroll]
    have hle := h.wait_le
    exact ⟨⟨by dsimp only; omega, by dsimp only; omega, h.count_nonneg⟩, h.minus_pos, h.total⟩
  · rw [hscroll]
    exact h.count_succ
  · rw [hscroll]
    exact sound_moveTotals h.count_succ now

/-- A scroll takes no entries. -/
theorem scroll_entries (now : TimePoint) (c : Counter) :
    (c.scroll options now).1.entries = c.entries := by
  rcases scroll_cases options now c with ⟨-, hscroll⟩ | ⟨-, hscroll⟩ | ⟨-, hscroll⟩
  · rw [hscroll]
  · rw [hscroll]
  · rw [hscroll, (movesTotals_moveTotals options now _).entries]

theorem scroll_minus (now : TimePoint) (c : Counter) :
    (c.scroll options now).1.momentumMinus = c.momentumMinus := by
  rcases scroll_cases options now c with ⟨-, hscroll⟩ | ⟨-, hscroll⟩ | ⟨-, hscroll⟩
  · rw [hscroll]
  · rw [hscroll]
  · rw [hscroll, (movesTotals_moveTotals options now _).minus]

/-! ### Runs -/

/-- A new counter is sound. -/
theorem sound_initial (momentumMinus : ℤ) : Sound { momentumMinus } where
  wait_nonneg := le_rfl
  wait_le := Int.zero_le_ofNat 10
  count_nonneg := le_rfl
  minus_pos hdirection := absurd rfl hdirection
  total _ := ⟨rfl, rfl⟩

/-- **Every step keeps the counter sound**. -/
theorem sound_step {c : Counter} (h : c.Sound) (i : Input) :
    (c.step parameters options i).1.Sound := by
  cases i with
  | update motion timePoint =>
      exact ⟨⟨h.wait_nonneg, h.wait_le, h.count_nonneg⟩, h.minus_pos, h.total⟩
  | tick now later =>
      have hscrolled : ((c.processEntries parameters options now).1.scroll options later).1.Sound :=
        sound_scroll (sound_processEntries h now) later
      exact ⟨⟨hscrolled.wait_nonneg, hscrolled.wait_le, hscrolled.count_nonneg⟩,
        hscrolled.minus_pos, hscrolled.total⟩
  | asyncReset =>
      exact ⟨⟨le_rfl, Int.zero_le_ofNat 10, le_rfl⟩, fun hdirection => absurd rfl hdirection,
        fun _ => ⟨rfl, rfl⟩⟩

/-- **Every run keeps the invariant.** -/
theorem sound_after (momentumMinus : ℤ) (inputs : List Input) :
    (after parameters options momentumMinus inputs).Sound := by
  have hkeep (c : Counter) (i : Input) (h : c.Sound) : (c.step parameters options i).1.Sound :=
    sound_step h i
  exact Machine.run_invariant hkeep (sound_initial momentumMinus) inputs

/-! ### The timer stops -/

/-- The function of the timer stops it: neither stage has anything left to do. -/
structure Stops (parameters : CoreConfiguration.ComplexModificationsParameters)
    (options : Options) (c : Counter) (now later : TimePoint) : Prop where
  processEntries : (c.processEntries parameters options now).2 = false
  scroll : ((c.processEntries parameters options now).1.scroll options later).2.2 = false
  entries : (c.tick parameters options now later).1.entries = []
  timer : (c.tick parameters options now later).1.timerEnabled = false

/-- What is left to do: first the entries, and for the front entry the time until it is not recent;
then the totals, where a reduction pays for a wait. -/
def remaining (options : Options) (c : Counter) (now : TimePoint) : ℕ ×ₗ ℕ :=
  toLex (c.entries.length,
    match c.entries with
    | [] => 11 * c.totalAbs + c.momentumWait.toNat
    | front :: _ =>
      (front.timePoint + options.recentTimeDurationMilliseconds + 1 - now).toNat)

theorem processEntries_nil {c : Counter} (h : c.entries = []) (now : TimePoint) :
    c.processEntries parameters options now = (c, false) := by
  unfold processEntries
  rw [h]

theorem processEntries_cons {c : Counter} {front : CounterEntry} {rest : List CounterEntry}
    (h : c.entries = front :: rest) (now : TimePoint) :
    c.processEntries parameters options now =
      if now - front.timePoint ≤ options.recentTimeDurationMilliseconds then (c, true)
      else (c.processChunk parameters options front.timePoint, true) := by
  unfold processEntries
  rw [h]

/-- A tick takes the entries that `process_entries` takes. -/
theorem tick_entries (c : Counter) (now later : TimePoint) :
    (c.tick parameters options now later).1.entries =
      (c.processEntries parameters options now).1.entries :=
  scroll_entries later _

/-- Without entries a scroll stops the timer, waits or lowers the totals. -/
theorem scroll_descent {c : Counter} (h : c.Sound) (now : TimePoint) :
    (c.scroll options now).2.2 = false ∨
      11 * (c.scroll options now).1.totalAbs + (c.scroll options now).1.momentumWait.toNat <
        11 * c.totalAbs + c.momentumWait.toNat := by
  rcases scroll_cases options now c with ⟨hwait, hscroll⟩ | ⟨-, hscroll⟩ | ⟨-, hscroll⟩
  · right
    rw [hscroll]
    unfold totalAbs
    dsimp only
    omega
  · exact .inl (by rw [hscroll])
  · -- A lower sum of the totals pays for a new wait, which is at most 10.
    rcases totalAbs_moveTotals options h.count_succ now with hlt | ⟨hx, hy⟩
    · right
      rw [hscroll]
      have hwait := (bounded_moveTotals options h.count_succ.toBounded now).wait_le
      unfold totalAbs at hlt ⊢
      dsimp only at hlt
      omega
    · exact .inl (by rw [hscroll, moveTotals_stops hx hy])

/-- **Every tick stops the timer or leaves less to do.** -/
theorem tick_descent {c : Counter} (h : c.Sound) {now next : TimePoint} (later : TimePoint)
    (hnext : now + 1 ≤ next) :
    c.Stops parameters options now later ∨
      (c.tick parameters options now later).1.remaining options next < c.remaining options now := by
  have hentries : (c.tick parameters options now later).1.entries = _ := tick_entries c now later
  cases hc : c.entries with
  | nil =>
      -- Only the scroll has something to do.
      have hprocess : c.processEntries parameters options now = (c, false) :=
        processEntries_nil hc now
      rw [hprocess, hc] at hentries
      rcases scroll_descent h later with hstops | hlt
      · left
        refine ⟨by rw [hprocess], by rw [hprocess]; exact hstops, hentries, ?_⟩
        unfold tick
        rw [hprocess]
        dsimp only
        rw [hstops, Bool.or_false, Bool.and_false]
      · right
        rw [remaining, remaining, hentries, hc, Prod.Lex.toLex_lt_toLex]
        refine .inr ⟨rfl, ?_⟩
        unfold tick
        rw [hprocess]
        exact hlt
  | cons front rest =>
      -- The front entry is still recent, and a millisecond less so, or its chunk is taken.
      right
      have hprocess : c.processEntries parameters options now = _ := processEntries_cons hc now
      rw [hprocess] at hentries
      rw [remaining, remaining, hentries, Prod.Lex.toLex_lt_toLex]
      split_ifs with hrecent
      · rw [if_pos hrecent, hc] at hentries
        refine .inr ⟨rfl, ?_⟩
        rw [hc]
        exact (Int.toNat_lt_toNat (by linarith)).mpr (by linarith)
      · exact .inl (length_entries_processChunk hc)

/-- The counter after `n` ticks without new motion. -/
def ticks (parameters : CoreConfiguration.ComplexModificationsParameters) (options : Options)
    (now later : ℕ → TimePoint) (c : Counter) : ℕ → Counter :=
  Machine.along (fun c (time : TimePoint × TimePoint) =>
    (c.tick parameters options time.1 time.2).1) (fun n => (now n, later n)) c

/-- **From every sound state the timer stops**, when the clock goes on. -/
theorem Sound.exists_stops {c : Counter} (h : c.Sound) {now : ℕ → TimePoint}
    (later : ℕ → TimePoint) (hnow : ∀ n, now n + 1 ≤ now (n + 1)) :
    ∃ n, (ticks parameters options now later c n).Stops parameters options (now n) (later n) := by
  refine Machine.exists_along_of_descent
    (Q := fun (c : Counter) (time : TimePoint × TimePoint) =>
      c.Stops parameters options time.1 time.2)
    (fun c time => c.remaining options time.1) (fun c n hc => ?_) h
  rcases tick_descent hc (later n) (hnow n) with hstops | hlt
  · exact .inl hstops
  · exact .inr ⟨sound_step hc (.tick (now n) (later n)), hlt⟩

/-- A tick that takes a chunk off the entries. -/
def TakesChunk (options : Options) (c : Counter) : Input → Prop
  | .tick now _ =>
    ∃ front rest, c.entries = front :: rest ∧
      options.recentTimeDurationMilliseconds < now - front.timePoint
  | _ => False

/-- The step that takes a chunk leaves a momentum minus of 1 at least. -/
theorem one_le_minus_of_takesChunk {c : Counter} (h : c.Sound) {i : Input}
    (htakes : c.TakesChunk options i) : 1 ≤ (c.step parameters options i).1.momentumMinus := by
  cases i with
  | update motion timePoint => exact htakes.elim
  | asyncReset => exact htakes.elim
  | tick now later =>
      obtain ⟨front, rest, hc, hlong⟩ := htakes
      have hprocess : c.processEntries parameters options now = _ := processEntries_cons hc now
      rw [if_neg (not_le.mpr hlong)] at hprocess
      have hminus : (c.tick parameters options now later).1.momentumMinus = _ :=
        scroll_minus later (c.processEntries parameters options now).1
      rw [hprocess] at hminus
      exact hminus ▸ (directed_processChunk h _).minus_pos

/-- From then on it stays so. -/
theorem one_le_minus_step {c : Counter} (h : c.Sound) (hminus : 1 ≤ c.momentumMinus) (i : Input) :
    1 ≤ (c.step parameters options i).1.momentumMinus := by
  cases i with
  | update motion timePoint => exact hminus
  | asyncReset => exact hminus
  | tick now later =>
      have hscroll : (c.tick parameters options now later).1.momentumMinus = _ :=
        scroll_minus later (c.processEntries parameters options now).1
      show 1 ≤ (c.tick parameters options now later).1.momentumMinus
      rw [hscroll]
      unfold processEntries
      split
      · exact hminus
      · split_ifs
        · exact hminus
        · exact (directed_processChunk h _).minus_pos

theorem one_le_minus_after {momentumMinus : ℤ} {before : List Input} {i : Input}
    (htakes : (after parameters options momentumMinus before).TakesChunk options i)
    (rest : List Input) :
    1 ≤ (after parameters options momentumMinus (before ++ i :: rest)).momentumMinus := by
  induction rest using List.reverseRecOn with
  | nil =>
      rw [after, Machine.run_concat]
      exact one_le_minus_of_takesChunk (sound_after momentumMinus before) htakes
  | append_singleton rest j ih =>
      rw [← List.cons_append, ← List.append_assoc, after, Machine.run_concat]
      exact one_le_minus_step (sound_after momentumMinus _) ih j

/-- **Mouse-motion scrolling stops.**  After any jobs, ticks alone stop the timer when the clock
goes on by a millisecond or more from one to the next.  The wait stays between 0 and 10,
`momentum_minus_` is at least 1 once a chunk has been taken, and every scroll that neither waits nor
returns early lowers the sum of the totals, or they are 0 already. -/
theorem scrolling_stops (parameters : CoreConfiguration.ComplexModificationsParameters)
    (options : Options) (momentumMinus : ℤ) (inputs : List Input) :
    let c := after parameters options momentumMinus inputs
    (∀ now later : ℕ → TimePoint, (∀ n, now n + 1 ≤ now (n + 1)) →
      ∃ n, (ticks parameters options now later c n).Stops parameters options (now n) (later n)) ∧
    (0 ≤ c.momentumWait ∧ c.momentumWait ≤ 10) ∧
    ((∃ before i rest, inputs = before ++ i :: rest ∧
        (after parameters options momentumMinus before).TakesChunk options i) →
      1 ≤ c.momentumMinus) ∧
    ∀ now later, (c.processEntries parameters options now).1.Scrolls options later →
      ((c.processEntries parameters options now).1.scroll options later).1.totalAbs <
          (c.processEntries parameters options now).1.totalAbs ∨
        (c.processEntries parameters options now).1.x.total = 0 ∧
          (c.processEntries parameters options now).1.y.total = 0 := by
  have hsound : (after parameters options momentumMinus inputs).Sound :=
    sound_after momentumMinus inputs
  refine ⟨fun now later hnow => hsound.exists_stops later hnow,
    ⟨hsound.wait_nonneg, hsound.wait_le⟩, ?_, fun now later hscrolls => ?_⟩
  · rintro ⟨before, i, rest, rfl, htakes⟩
    exact one_le_minus_after htakes rest
  · have hprocessed : ((after parameters options momentumMinus inputs).processEntries
        parameters options now).1.Sound := sound_processEntries hsound now
    rw [scroll_of_scrolls options hscrolls]
    exact totalAbs_moveTotals options hprocessed.count_succ later

end Counter

end Karabiner.MouseMotionToScroll
