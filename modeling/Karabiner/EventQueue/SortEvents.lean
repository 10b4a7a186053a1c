import Karabiner.EventQueue.Queue
import Karabiner.Library.AdjacentSwaps

/-!
# What `sort_events` does to a queue

A swap of `sort_events` takes two neighbours that are in the wrong order, and puts them right
(`Queue.needsSwap_swap`).  So it only permutes the entries, and a sort that changes anything lowers
the number of pairs in the wrong order (`Queue.inversions`).

* `Queue.SortsTo` — the loop without a bound on its rounds.
* `Queue.sortsTo_sortEvents` — **the loop ends**, within the rounds that the model gives it.
* `Queue.sortEvents_minimal` — **no more is reordered than `needs_swap` asks for**.
-/

namespace Karabiner

namespace Queue

/-- Two entries are not both to be swapped. -/
theorem needsSwap_swap {v1 v2 : Entry} (h : needsSwap v1 v2 = true) : needsSwap v2 v1 = false := by
  unfold needsSwap at h ⊢
  split_ifs at h ⊢ with ht ht' <;> try rfl
  · cases h1 : v1.event.getMomentarySwitchEvent with
    | none => simp [h1] at h
    | some e1 =>
        cases h2 : v2.event.getMomentarySwitchEvent with
        | none => simp [h1, h2] at h
        | some e2 =>
            simp only [h1, h2] at h ⊢
            cases hm1 : e1.modifierFlag <;> cases hm2 : e2.modifierFlag <;> simp_all

/-- How many pairs of entries are in the wrong order. -/
def inversions : List Entry → ℕ
  | [] => 0
  | e :: es => es.countP (needsSwap e) + inversions es

/-- An entry that is no momentary switch is never in the wrong order. -/
theorem inversions_concat (l : List Entry) {e : Entry} (h : ∀ v, needsSwap v e = false) :
    inversions (l ++ [e]) = inversions l := by
  induction l with
  | nil => rfl
  | cons v l ih => simp [inversions, ih, h, List.countP_append]

/-- A swap of two neighbours in the wrong order. -/
theorem inversions_swap (before : List Entry) {v1 v2 : Entry} (h : needsSwap v1 v2 = true)
    (after : List Entry) :
    inversions (before ++ v2 :: v1 :: after) < inversions (before ++ v1 :: v2 :: after) := by
  induction before with
  | nil =>
      simp only [List.nil_append, inversions, List.countP_cons, h, needsSwap_swap h]
      simp
      omega
  | cons v before ih =>
      have hcount : (before ++ v2 :: v1 :: after).countP (needsSwap v) =
          (before ++ v1 :: v2 :: after).countP (needsSwap v) :=
        ((List.Perm.swap v1 v2 after).append_left before).countP_eq _
      simp only [List.cons_append, inversions, hcount]
      omega

/-- Swapping two neighbours of a list by their indices. -/
theorem exists_swap {events : List Entry} {i : ℕ} {v1 v2 : Entry} (h1 : events[i]? = some v1)
    (h2 : events[i + 1]? = some v2) :
    ∃ before after, events = before ++ v1 :: v2 :: after ∧
      (events.set i v2).set (i + 1) v1 = before ++ v2 :: v1 :: after := by
  obtain ⟨hlt, rfl⟩ := List.getElem?_eq_some_iff.mp h2
  obtain ⟨-, rfl⟩ := List.getElem?_eq_some_iff.mp h1
  have hsplit : events = events.take i ++ events[i] :: events[i + 1] :: events.drop (i + 2) := by
    rw [List.getElem_cons_drop, List.getElem_cons_drop, List.take_append_drop]
  have hlength : (events.take i).length = i := List.length_take_of_le (by omega)
  refine ⟨events.take i, events.drop (i + 2), hsplit, ?_⟩
  generalize events[i] = v1 at hsplit ⊢
  generalize events[i + 1] = v2 at hsplit ⊢
  generalize events.take i = before at hsplit hlength ⊢
  generalize events.drop (i + 2) = after at hsplit ⊢
  rw [hsplit, ← hlength]
  simp

/-- The loop permutes the entries; if it changes the list, it lowers the inversions. -/
theorem sortEventsFrom_spec (fuel : ℕ) (events : List Entry) (i : ℕ) :
    (sortEventsFrom fuel events i).Perm events ∧
      (sortEventsFrom fuel events i = events ∨
        inversions (sortEventsFrom fuel events i) < inversions events) := by
  induction fuel generalizing events i with
  | zero => exact ⟨.refl _, Or.inl rfl⟩
  | succ fuel ih =>
      unfold sortEventsFrom
      split
      · rename_i v1 v2 h1 h2
        split_ifs with hswap
        · obtain ⟨before, after, hevents, hset⟩ := exists_swap h1 h2
          rw [hset]
          have hlt := inversions_swap before hswap after
          have hperm : (before ++ v2 :: v1 :: after).Perm (before ++ v1 :: v2 :: after) :=
            (List.Perm.swap v1 v2 after).append_left before
          obtain ⟨hrest, hle⟩ := ih (before ++ v2 :: v1 :: after) (i - 1)
          rw [hevents]
          refine ⟨hrest.trans hperm, Or.inr ?_⟩
          rcases hle with heq | hless
          · rw [heq]
            exact hlt
          · exact hless.trans hlt
        · exact ih events (i + 1)
      · exact ⟨.refl _, Or.inl rfl⟩

/-- **`sort_events`** permutes the entries; if it changes the queue, it lowers the inversions. -/
theorem sortEvents_spec (q : Queue) :
    q.sortEvents.events.Perm q.events ∧
      (q.sortEvents.events = q.events ∨ inversions q.sortEvents.events < inversions q.events) :=
  sortEventsFrom_spec _ q.events 0

/-! ### The loop ends -/

/-- The loop of `sort_events` at the index `i` ends with the entries `result`, after some number of
rounds. -/
inductive SortsTo : List Entry → ℕ → List Entry → Prop
  | done {events : List Entry} {i : ℕ} (h : events.length ≤ i + 1) : SortsTo events i events
  | swap {events result : List Entry} {i : ℕ} {v1 v2 : Entry} (h1 : events[i]? = some v1)
      (h2 : events[i + 1]? = some v2) (hswap : needsSwap v1 v2)
      (rest : SortsTo ((events.set i v2).set (i + 1) v1) (i - 1) result) : SortsTo events i result
  | next {events result : List Entry} {i : ℕ} {v1 v2 : Entry} (h1 : events[i]? = some v1)
      (h2 : events[i + 1]? = some v2) (hswap : ¬ needsSwap v1 v2)
      (rest : SortsTo events (i + 1) result) : SortsTo events i result

/-- There is at most one pair in the wrong order for every pair of entries. -/
theorem inversions_le (events : List Entry) :
    2 * inversions events + events.length ≤ events.length * events.length := by
  induction events with
  | nil => simp [inversions]
  | cons e es ih =>
      have hcount : es.countP (needsSwap e) ≤ es.length := List.countP_le_length
      simp only [inversions, List.length_cons]
      nlinarith

/-- A round either moves on by one entry, or steps back by one and removes an inversion. -/
theorem sortsTo_sortEventsFrom {fuel : ℕ} {events : List Entry} {i : ℕ}
    (hfuel : events.length + 2 * inversions events ≤ fuel + i + 1) :
    SortsTo events i (sortEventsFrom fuel events i) := by
  induction fuel generalizing events i with
  | zero => exact .done (by omega)
  | succ fuel ih =>
      unfold sortEventsFrom
      split
      · rename_i v1 v2 h1 h2
        split_ifs with hswap
        · refine .swap h1 h2 hswap (ih ?_)
          obtain ⟨before, after, hevents, hset⟩ := exists_swap h1 h2
          have hlt := inversions_swap before hswap after
          rw [hset, ((List.Perm.swap v1 v2 after).append_left before).length_eq]
          rw [hevents] at hfuel
          omega
        · exact .next h1 h2 hswap (ih (by omega))
      · rename_i hnone
        refine .done ?_
        by_contra hlt
        exact hnone events[i] events[i + 1] (List.getElem?_eq_getElem (by omega))
          (List.getElem?_eq_getElem (by omega))

/-- **The loop of `sort_events` ends**, and its result is what the model computes. -/
theorem sortsTo_sortEvents (q : Queue) : SortsTo q.events 0 q.sortEvents.events := by
  refine sortsTo_sortEventsFrom ?_
  have hle := inversions_le q.events
  omega

/-! ### What it leaves in order -/

theorem SortsTo.reorders {events result : List Entry} {i : ℕ} (h : SortsTo events i result) :
    Reorders (fun v1 v2 => needsSwap v1 v2) events result := by
  induction h with
  | done => exact .refl _
  | swap h1 h2 hswap _ ih =>
      obtain ⟨before, after, hevents, hset⟩ := exists_swap h1 h2
      rw [hset] at ih
      rw [hevents]
      exact .swap before after hswap ih
  | next _ _ _ _ ih => exact ih

/-- Behind the index no two neighbours are in the wrong order. -/
theorem SortsTo.isChain {events result : List Entry} {i : ℕ} (h : SortsTo events i result)
    (hbehind : ∀ (j : ℕ) (v1 v2 : Entry), j < i → events[j]? = some v1 →
      events[j + 1]? = some v2 → ¬ needsSwap v1 v2) :
    result.IsChain fun v1 v2 => ¬ needsSwap v1 v2 := by
  induction h with
  | @done events i hlength =>
      refine List.isChain_iff_getElem.mpr fun j hj => hbehind j _ _ (by omega) ?_ ?_
      · exact List.getElem?_eq_getElem (by omega)
      · exact List.getElem?_eq_getElem hj
  | @swap events result i v1 v2 h1 h2 hswap _ ih =>
      refine ih fun j w1 w2 hj hw1 hw2 => hbehind j w1 w2 (by omega) ?_ ?_
      · rwa [List.getElem?_set_ne (by omega), List.getElem?_set_ne (by omega)] at hw1
      · rwa [List.getElem?_set_ne (by omega), List.getElem?_set_ne (by omega)] at hw2
  | @next events result i v1 v2 h1 h2 hswap _ ih =>
      refine ih fun j w1 w2 hj hw1 hw2 => ?_
      rcases Nat.lt_succ_iff_lt_or_eq.mp hj with hlt | rfl
      · exact hbehind j w1 w2 hlt hw1 hw2
      · obtain rfl := Option.some.inj (h1.symm.trans hw1)
        obtain rfl := Option.some.inj (h2.symm.trans hw2)
        exact hswap

/-- Two entries whose order means something to the user: they have different time stamps, or one of
them is no momentary switch, or both or neither are modifiers. -/
def KeepsOrder (v1 v2 : Entry) : Prop :=
  v1.eventTimeStamp.timeStamp ≠ v2.eventTimeStamp.timeStamp ∨
    v1.event.getMomentarySwitchEvent = none ∨ v2.event.getMomentarySwitchEvent = none ∨
      ∃ e1 e2, v1.event = .momentarySwitchEvent e1 ∧ v2.event = .momentarySwitchEvent e2 ∧
        e1.modifierFlag = e2.modifierFlag

theorem KeepsOrder.not_needsSwap {v1 v2 : Entry} (h : KeepsOrder v1 v2) :
    ¬ needsSwap v1 v2 := by
  rcases h with htime | h1 | h2 | ⟨e1, e2, h1, h2, hmodifier⟩
  · simp [needsSwap, htime]
  · simp [needsSwap, h1]
  · cases h1 : v1.event.getMomentarySwitchEvent <;> simp [needsSwap, h1, h2]
  · simp [needsSwap, h1, h2, Event.getMomentarySwitchEvent, hmodifier]

/-- **No more is reordered than `needs_swap` asks for.**  The loop ends with the entries in an order
without neighbours to swap, where `places` has every entry with its place before; an entry is behind
one that it preceded only if `needs_swap` holds of the two. -/
theorem sortEvents_minimal (q : Queue) :
    SortsTo q.events 0 q.sortEvents.events ∧
      q.sortEvents.events.Perm q.events ∧
      q.sortEvents.events.IsChain (fun v1 v2 => ¬ needsSwap v1 v2) ∧
      ∃ places : List (Entry × ℕ), places.map Prod.fst = q.sortEvents.events ∧
        places.Perm q.events.zipIdx ∧
        places.Pairwise (fun y x => x.2 < y.2 → needsSwap x.1 y.1) ∧
        places.Pairwise (fun y x => KeepsOrder x.1 y.1 → y.2 < x.2) := by
  have hsorts := sortsTo_sortEvents q
  obtain ⟨places, hplaces, hperm, hpairs⟩ := hsorts.reorders.exists_places
  refine ⟨hsorts, hsorts.reorders.perm, hsorts.isChain (by simp), places, hplaces, hperm, hpairs,
    ?_⟩
  have hnodup : places.Pairwise fun y x => y.2 ≠ x.2 := by
    rw [← List.pairwise_map, ← List.Nodup, (hperm.map Prod.snd).nodup_iff, List.zipIdx_map_snd]
    exact List.nodup_range'
  refine (hpairs.and hnodup).imp ?_
  rintro y x ⟨hreversed, hne⟩ hkeeps
  rcases lt_or_gt_of_ne hne with hlt | hgt
  · exact hlt
  · exact absurd (hreversed hgt) hkeeps.not_needsSwap

end Queue

end Karabiner
