import Karabiner.Manipulator.ManipulatorManager.Ownership

/-!
# Pairs of key_downs and key_ups

Whether the two entries of a key press are copied to the output queue or consumed.  A key_up is
consumed exactly while some press holds its from event, and a key_down ends up consumed exactly when
a press holds its from event afterwards.  So a pair is torn apart only if, between its key_down and
its key_up, the from event becomes held: by a scan that collects the *next* key_down of the key.

* `CollectsBeyondReleaseHeld` — no capture does that, unless the key is held anyway.
* `Connection.run_paired` — under this condition every pair is copied or consumed as a whole.
-/

namespace Karabiner

namespace Connection

/-! ### Pairs in a list of entries -/

/-- A key_down and its key_up are both still valid or both invalid. -/
def Paired (l : List Entry) : Prop :=
  ∀ before d between u after, l = before ++ d :: between ++ u :: after →
    d.eventType = .keyDown → u.eventType = .keyUp → u.fromEvent = d.fromEvent →
    (∀ e ∈ between, e.fromEvent = d.fromEvent → e.eventType = .single) →
    (d.validity = .valid ↔ u.validity = .valid)

/-- The key_down `d` ends a list as far as its own key is concerned. -/
def Pending (l : List Entry) (d : Entry) : Prop :=
  d.eventType = .keyDown ∧ ∃ before between, l = before ++ d :: between ∧
    ∀ e ∈ between, e.fromEvent = d.fromEvent → e.eventType = .single

/-- What is pending after one more entry. -/
theorem pending_concat_iff {l : List Entry} {e d : Entry} :
    Pending (l ++ [e]) d ↔ (d = e ∧ e.eventType = .keyDown) ∨
      Pending l d ∧ (e.fromEvent = d.fromEvent → e.eventType = .single) := by
  constructor
  · rintro ⟨hdown, before, between, heq, hbetween⟩
    cases between using List.reverseRecOn with
    | nil =>
        obtain ⟨rfl, he⟩ := List.append_inj' heq rfl
        obtain rfl : e = d := by simpa using he
        exact Or.inl ⟨rfl, hdown⟩
    | append_singleton between last =>
        rw [← List.cons_append, ← List.append_assoc] at heq
        obtain ⟨rfl, he⟩ := List.append_inj' heq rfl
        obtain rfl : e = last := by simpa using he
        exact Or.inr ⟨⟨hdown, before, between, rfl,
          fun e' he' => hbetween e' (List.mem_append_left _ he')⟩,
          hbetween e (List.mem_append_right _ (List.mem_singleton_self _))⟩
  · rintro (⟨rfl, hdown⟩ | ⟨⟨hdown, before, between, rfl, hbetween⟩, he⟩)
    · exact ⟨hdown, l, [], rfl, by simp⟩
    · refine ⟨hdown, before, between ++ [e], by simp, fun e' he' => ?_⟩
      rcases List.mem_append.mp he' with he' | he'
      · exact hbetween e' he'
      · rw [List.mem_singleton.mp he']
        exact he

/-- An entry keeps a list paired unless it is the key_up of a pair with the wrong validity. -/
theorem Paired.concat {l : List Entry} (h : Paired l) {e : Entry}
    (he : ∀ d, Pending l d → e.eventType = .keyUp → e.fromEvent = d.fromEvent →
      (d.validity = .valid ↔ e.validity = .valid)) : Paired (l ++ [e]) := by
  intro before d between u after heq hdown hup hsame hbetween
  cases after using List.reverseRecOn with
  | nil =>
      obtain ⟨rfl, hu⟩ := List.append_inj' heq rfl
      obtain rfl : e = u := by simpa using hu
      exact he d ⟨hdown, before, between, rfl, hbetween⟩ hup hsame
  | append_singleton after last =>
      rw [← List.cons_append, ← List.append_assoc] at heq
      obtain ⟨rfl, -⟩ := List.append_inj' heq rfl
      exact h before d between u after rfl hdown hup hsame hbetween

/-! ### Alternating input -/

/-- The keys that are down after some entries, if these alternate. -/
def downAfter (entries : List Entry) (down : Finset FromEvent) : Option (Finset FromEvent) :=
  (entries.map key).foldlM press down

theorem downAfter_append (l l' : List Entry) (down : Finset FromEvent) :
    downAfter (l ++ l') down = (downAfter l down).bind (downAfter l') := by
  rw [downAfter, List.map_append, List.foldlM_append]
  rfl

theorem downAfter_cons (e : Entry) (l : List Entry) (down : Finset FromEvent) :
    downAfter (e :: l) down = (press down (key e)).bind (downAfter l) := by
  rw [downAfter, List.map_cons, List.foldlM_cons]
  rfl

/-- Entries alternate if the keys that are down can be told after them. -/
theorem alternate_iff (l : List Entry) : Alternate l ↔ ∃ down, downAfter l ∅ = some down := by
  rw [← Option.isSome_iff_exists]
  rfl

/-- A key_down presses a key that is not down. -/
theorem press_keyDown {e : Entry} (h : e.eventType = .keyDown) (down : Finset FromEvent) :
    press down (key e) =
      if e.fromEvent ∈ down then none else some (insert e.fromEvent down) := by
  simp only [press, key, h]

/-- A key_up releases a key that is down. -/
theorem press_keyUp {e : Entry} (h : e.eventType = .keyUp) (down : Finset FromEvent) :
    press down (key e) = if e.fromEvent ∈ down then some (down.erase e.fromEvent) else none := by
  simp only [press, key, h]

/-- A single event presses and releases nothing. -/
theorem press_single {e : Entry} (h : e.eventType = .single) (down : Finset FromEvent) :
    press down (key e) = some down := by
  simp only [press, key, h]

/-- A key that is down stays down without a key_up. -/
theorem mem_downAfter {l : List Entry} {down down' : Finset FromEvent} {fe : FromEvent}
    (h : downAfter l down = some down') (hfe : fe ∈ down)
    (hl : ∀ e ∈ l, e.fromEvent = fe → e.eventType ≠ .keyUp) : fe ∈ down' := by
  induction l generalizing down with
  | nil =>
      cases h
      exact hfe
  | cons e l ih =>
      rw [downAfter_cons, Option.bind_eq_some_iff] at h
      obtain ⟨down₁, hpress, h⟩ := h
      refine ih h ?_ fun e' he' => hl e' (List.mem_cons_of_mem _ he')
      have he := hl e List.mem_cons_self
      cases htype : e.eventType with
      | keyDown =>
          rw [press_keyDown htype, Option.ite_none_left_eq_some] at hpress
          rw [← Option.some.inj hpress.2]
          exact Finset.mem_insert_of_mem hfe
      | keyUp =>
          rw [press_keyUp htype, Option.ite_none_right_eq_some] at hpress
          rw [← Option.some.inj hpress.2]
          exact Finset.mem_erase.mpr ⟨fun heq => he heq.symm htype, hfe⟩
      | single =>
          rw [press_single htype] at hpress
          rw [← Option.some.inj hpress]
          exact hfe

/-- A pending key is down. -/
theorem Pending.mem_downAfter {l : List Entry} {d : Entry} (h : Pending l d)
    {down : Finset FromEvent} (hl : downAfter l ∅ = some down) : d.fromEvent ∈ down := by
  obtain ⟨hdown, before, between, rfl, hbetween⟩ := h
  rw [downAfter_append, Option.bind_eq_some_iff] at hl
  obtain ⟨down₁, -, hl⟩ := hl
  rw [downAfter_cons, Option.bind_eq_some_iff] at hl
  obtain ⟨down₂, hpress, hl⟩ := hl
  refine Connection.mem_downAfter hl ?_ fun e he heq hup => ?_
  · rw [press_keyDown hdown, Option.ite_none_left_eq_some] at hpress
    rw [← Option.some.inj hpress.2]
    exact Finset.mem_insert_self _ _
  · exact absurd ((hbetween e he heq).symm.trans hup) (by decide)

/-- Before a pending key goes down again, it goes up. -/
theorem Pending.exists_keyUp {l : List Entry} {d : Entry} (h : Pending l d) {before : List Entry}
    {e : Entry} {after : List Entry} (halternate : Alternate (l ++ (before ++ e :: after)))
    (hdown : e.eventType = .keyDown) (hfe : e.fromEvent = d.fromEvent) :
    ∃ u ∈ before, u.eventType = .keyUp ∧ u.fromEvent = e.fromEvent := by
  obtain ⟨down, hall⟩ := (alternate_iff _).mp halternate
  rw [downAfter_append, Option.bind_eq_some_iff] at hall
  obtain ⟨down₁, hl, hall⟩ := hall
  rw [downAfter_append, Option.bind_eq_some_iff] at hall
  obtain ⟨down₂, hbefore, hall⟩ := hall
  rw [downAfter_cons, Option.bind_eq_some_iff] at hall
  obtain ⟨down₃, hpress, -⟩ := hall
  by_contra hnone
  push Not at hnone
  have hmem : d.fromEvent ∈ down₂ :=
    Connection.mem_downAfter hbefore (h.mem_downAfter hl) fun u hu huf hup =>
      hnone u hu hup (huf.trans hfe.symm)
  rw [press_keyDown hdown, hfe, if_pos hmem] at hpress
  cases hpress

/-! ### Entries keep their keys -/

/-- A delay leaves the key as it is. -/
theorem key_of_delayed {front front' : Entry} (h : Basic.Delayed front front') :
    key front' = key front := by
  obtain ⟨d, rfl⟩ := h
  rfl

theorem key_of_consumed {front front' : Entry} (h : Basic.Consumed front front') :
    key front' = key front := by
  obtain ⟨d, rfl⟩ := h
  rfl

/-- Only the keys matter for the alternation. -/
theorem alternate_of_map_key_eq {l l' : List Entry} (h : l.map key = l'.map key) :
    Alternate l ↔ Alternate l' := by
  rw [Alternate, Alternate, h]

theorem Alternate.of_append {l l' : List Entry} (h : Alternate (l ++ l')) : Alternate l := by
  obtain ⟨down, hdown⟩ := (alternate_iff _).mp h
  rw [downAfter_append, Option.bind_eq_some_iff] at hdown
  obtain ⟨down₁, hl, -⟩ := hdown
  exact (alternate_iff _).mpr ⟨down₁, hl⟩

section Run

variable [Exprtk] [SystemClock] [MachTimebase]

omit [SystemClock] [MachTimebase] in
/-- The entries that have left the input queue and those that are in it, in order. -/
def history (c : Connection) : List Entry := c.processed ++ c.input.events

/-- A step adds what arrives to the history, as far as `f` tells, which sees neither the validity
nor the input delay of an entry. -/
theorem history_map_step {α : Type} {f : Entry → α}
    (hdelayed : ∀ {front front' : Entry}, Basic.Delayed front front' → f front' = f front)
    (hconsumed : ∀ {front front' : Entry}, Basic.Consumed front front' → f front' = f front)
    {c : Connection} (hwf : c.WellFormed) {i : Input}
    (harrive : ∀ e, i = .arrive e → f (c.input.delay e) = f e) :
    (c.step i).history.map f = c.history.map f ++ (arrivals [i]).map f := by
  have htakes {c' : Connection} {front front' : Entry} {rest : List Entry}
      (takes : Takes c c' front front' rest) (hf : f front' = f front) :
      c'.history.map f = c.history.map f := by
    simp [history, takes.events, takes.events', takes.processed, hf]
  by_cases harrives : ∃ e, i = .arrive e
  · obtain ⟨e, rfl⟩ := harrives
    have hstep : (c.step (.arrive e)).history = c.history ++ [c.input.delay e] :=
      (List.append_assoc _ _ _).symm
    rw [hstep, List.map_append, List.map_singleton, harrive e rfl]
    rfl
  · have hnone : arrivals [i] = [] := by
      cases i <;> first | exact absurd ⟨_, rfl⟩ harrives | rfl
    rw [hnone, List.map_nil, List.append_nil]
    cases effect_step hwf i with
    | idle _ processed keeps =>
        rcases keeps with ⟨e, rfl, -⟩ | ⟨-, hevents | ⟨front, front', rest, hevents, hfront, hrest⟩⟩
        · exact absurd ⟨e, rfl⟩ harrives
        · rw [history, history, processed, hevents]
        · simp [history, processed, hevents, hrest, hdelayed hfront]
    | passed _ _ _ takes delayed => exact htakes takes (hdelayed delayed)
    | swallowed _ _ _ takes consumed => exact htakes takes (hconsumed consumed)
    | captured _ _ _ _ _ _ _ _ takes consumed => exact htakes takes (hconsumed consumed)
    | released _ _ _ takes consumed => exact htakes takes (hconsumed consumed)
    | ungrabbed _ _ takes => exact htakes takes rfl

/-- A step adds what arrives to the history. -/
theorem history_step {c : Connection} (hwf : c.WellFormed) (i : Input) :
    (c.step i).history.map key = c.history.map key ++ (arrivals [i]).map key :=
  history_map_step key_of_delayed key_of_consumed hwf fun _ _ => rfl

/-- What is in the input queue was there before the step, up to its input delay, or arrives. -/
theorem mem_input_step {c : Connection} (hwf : c.WellFormed) {i : Input} {e : Entry}
    (he : e ∈ (c.step i).input.events) :
    ∃ e' ∈ c.input.events ++ arrivals [i], e.validity = e'.validity ∧ e.event = e'.event := by
  have htakes {front front' : Entry} {rest : List Entry}
      (takes : Takes c (c.step i) front front' rest) :
      ∃ e' ∈ c.input.events ++ arrivals [i], e.validity = e'.validity ∧ e.event = e'.event := by
    rw [takes.events'] at he
    exact ⟨e, by simp [takes.events, he], rfl, rfl⟩
  cases effect_step hwf i with
  | idle _ _ keeps =>
      rcases keeps with
        ⟨a, rfl, hevents⟩ | ⟨-, hevents | ⟨front, front', rest, hevents, hfront, hrest⟩⟩
      · rw [hevents] at he
        rcases List.mem_append.mp he with he | he
        · exact ⟨e, List.mem_append_left _ he, rfl, rfl⟩
        · rw [List.mem_singleton.mp he]
          exact ⟨a, by simp [arrivals], rfl, rfl⟩
      · rw [hevents] at he
        exact ⟨e, List.mem_append_left _ he, rfl, rfl⟩
      · rw [hrest] at he
        rcases List.mem_cons.mp he with rfl | he
        · obtain ⟨d, rfl⟩ := hfront
          exact ⟨front, by simp [hevents], rfl, rfl⟩
        · exact ⟨e, by simp [hevents, he], rfl, rfl⟩
  | passed _ _ _ takes => exact htakes takes
  | swallowed _ _ _ takes => exact htakes takes
  | captured _ _ _ _ _ _ _ _ takes => exact htakes takes
  | released _ _ _ takes => exact htakes takes
  | ungrabbed _ _ takes => exact htakes takes

/-! ### The invariant -/

/-- If the step captures the front entry, and the capture collects a key_down from beyond a key_up
of its key, then some press holds the key anyway. -/
def CollectsBeyondReleaseHeld (c : Connection) (i : Input) : Prop :=
  ∀ now reorder, i = .manipulate now reorder →
    ∀ front rest slot, c.Captures now front rest slot →
      ∀ before e after,
        window (slot.basic.endTimeStamp front) (front :: rest) = before ++ e :: after →
        IsCollectedAfter slot.basic.definition.from_ before e →
        (∃ u ∈ before, u.eventType = .keyUp ∧ u.fromEvent = e.fromEvent) →
        0 < c.holders e.fromEvent

omit [SystemClock] [MachTimebase] in
/-- The processed entries are paired, and a key that is down is held exactly if its key_down has
been consumed. -/
structure PairInv (c : Connection) : Prop where
  paired : Paired c.processed
  pending : ∀ d, Pending c.processed d → (d.validity = .invalid ↔ 0 < c.holders d.fromEvent)

omit [SystemClock] [MachTimebase] in
/-- Nothing in the input queue has been consumed, and no device is ungrabbed. -/
def InputClean (c : Connection) : Prop :=
  ∀ e ∈ c.input.events, e.validity = .valid ∧ e.event ≠ .deviceUngrabbed

omit [Exprtk] [SystemClock] [MachTimebase] in
/-- A window of valid entries is the beginning of the list. -/
theorem exists_eq_window_append {l : List Entry} (h : ∀ e ∈ l, e.validity = .valid)
    (endTimeStamp : AbsoluteTime) : ∃ rest, l = window endTimeStamp l ++ rest := by
  have hfilter : (l.filter fun e => e.validity = .valid) = l :=
    List.filter_eq_self.mpr fun e he => decide_eq_true (h e he)
  exact ⟨_, by rw [window, hfilter]; exact List.takeWhile_append_dropWhile.symm⟩

/-- The invariant is kept by a step that meets the condition. -/
theorem pairInv_step {c : Connection} (hwf : c.WellFormed) (hclean : c.InputClean)
    (halternate : Alternate c.history) {i : Input} (hguard : c.CollectsBeyondReleaseHeld i)
    (h : c.PairInv) : (c.step i).PairInv := by
  have hinvalid {v : Validity} (hv : ¬ v = .invalid) : v = .valid := by
    cases v <;> first | rfl | exact absurd rfl hv
  cases effect_step hwf i with
  | idle held processed =>
      refine ⟨processed ▸ h.paired, fun d hd => ?_⟩
      rw [held]
      exact h.pending d (processed ▸ hd)
  | passed front front' rest takes delayed held unheld =>
      obtain ⟨delay, rfl⟩ := delayed
      have hvalid := (hclean front (by simp [takes.events])).1
      refine ⟨?_, fun d hd => ?_⟩
      · rw [takes.processed]
        refine h.paired.concat fun d hd hup hsame => iff_of_true (hinvalid fun hd' => ?_) hvalid
        have hpos := (h.pending d hd).mp hd'
        have hup : front.eventType = .keyUp := hup
        rw [← hsame] at hpos
        exact absurd (unheld hvalid (by rw [hup]; decide)) (Nat.pos_iff_ne_zero.mp hpos)
      · rw [takes.processed, pending_concat_iff] at hd
        rw [held]
        rcases hd with ⟨rfl, hdown⟩ | ⟨hd, -⟩
        · have hdown : front.eventType = .keyDown := hdown
          refine iff_of_false (by rw [hvalid]; decide) (Nat.not_lt.mpr ?_)
          exact (unheld hvalid (by rw [hdown]; decide)).le
        · exact h.pending d hd
  | swallowed front front' rest takes consumed held valid down pos =>
      obtain ⟨delay, rfl⟩ := consumed
      refine ⟨?_, fun d hd => ?_⟩
      · rw [takes.processed]
        exact h.paired.concat fun d _ hup => absurd (down.symm.trans hup) (by decide)
      · rw [takes.processed, pending_concat_iff] at hd
        rw [held]
        rcases hd with ⟨rfl, -⟩ | ⟨hd, -⟩
        · exact iff_of_true rfl pos
        · exact h.pending d hd
  | captured now reorder front front' rest slot fromEvents input takes consumed captures held valid
      unheld collected mem =>
      obtain ⟨delay, rfl⟩ := consumed
      refine ⟨?_, fun d hd => ?_⟩
      · rw [takes.processed]
        exact h.paired.concat fun d _ hup => absurd (captures.down.symm.trans hup) (by decide)
      · rw [takes.processed, pending_concat_iff] at hd
        rw [held]
        rcases hd with ⟨rfl, -⟩ | ⟨hd, -⟩
        · refine iff_of_true rfl ?_
          change 0 < c.holders front.fromEvent + if front.fromEvent ∈ fromEvents then 1 else 0
          rw [if_pos mem]
          exact Nat.succ_pos _
        · rw [h.pending d hd]
          split_ifs with hmem
          · -- the capture collects the next key_down of the key, beyond its key_up
            obtain ⟨e, ⟨before, after, hwindow, hcollected⟩, hfe⟩ := (collected _).mp hmem
            obtain ⟨more, hmore⟩ := exists_eq_window_append
              (fun e he => (hclean e (takes.events ▸ he)).1) (slot.basic.endTimeStamp front)
            have hqueue : c.input.events = before ++ e :: (after ++ more) := by
              rw [takes.events, hmore, hwindow]
              simp
            rw [history, hqueue] at halternate
            have hup := hd.exists_keyUp halternate hcollected.1 hfe
            have hpos := hguard now reorder input front rest slot captures before e after hwindow
              hcollected hup
            rw [hfe] at hpos
            exact iff_of_true hpos (Nat.succ_pos _)
          · rfl
  | released front front' rest takes consumed valid up pos held =>
      obtain ⟨delay, rfl⟩ := consumed
      refine ⟨?_, fun d hd => ?_⟩
      · rw [takes.processed]
        refine h.paired.concat fun d hd _ hsame => iff_of_false ?_ (by simp)
        have hsame : front.fromEvent = d.fromEvent := hsame
        rw [(h.pending d hd).mpr (hsame ▸ pos)]
        decide
      · rw [takes.processed, pending_concat_iff] at hd
        rw [held]
        rcases hd with ⟨rfl, hdown⟩ | ⟨hd, hother⟩
        · exact absurd (up.symm.trans hdown) (by decide)
        · have hne : d.fromEvent ≠ front.fromEvent := fun heq =>
            absurd (up.symm.trans (hother heq.symm)) (by decide)
          rw [if_neg hne]
          exact h.pending d hd
  | ungrabbed front rest takes event =>
      exact absurd event (hclean front (by simp [takes.events])).2

/-! ### Runs -/

omit [SystemClock] [MachTimebase] in
theorem arrivals_append (is js : List Input) : arrivals (is ++ js) = arrivals is ++ arrivals js :=
  List.filterMap_append

omit [SystemClock] [MachTimebase] in
theorem WellFormedInput.of_append {is js : List Input} (h : WellFormedInput (is ++ js)) :
    WellFormedInput is := by
  rw [WellFormedInput, arrivals_append] at h
  exact ⟨h.1.of_append, fun e he => h.2 e (List.mem_append_left _ he)⟩

omit [SystemClock] [MachTimebase] in
theorem NoneUngrabbed.of_append {is js : List Input} (h : NoneUngrabbed (is ++ js)) :
    NoneUngrabbed is := by
  rw [NoneUngrabbed, arrivals_append] at h
  exact fun e he => h e (List.mem_append_left _ he)

/-- The history is what has arrived. -/
theorem history_run (definitions : List BasicDefinition) (output : Output) (is : List Input) :
    (Machine.run step (initial definitions output) is).history.map key =
      (arrivals is).map key := by
  induction is using List.reverseRecOn with
  | nil => rfl
  | append_singleton is i ih =>
      rw [Machine.run_concat, history_step (wellFormed_run definitions output is), ih,
        arrivals_append, List.map_append]

/-- In every state reached the input queue holds only what it should. -/
theorem inputClean_run (definitions : List BasicDefinition) (output : Output) {is : List Input}
    (hwf : WellFormedInput is) (hnone : NoneUngrabbed is) :
    (Machine.run step (initial definitions output) is).InputClean := by
  induction is using List.reverseRecOn with
  | nil => exact fun e he => absurd he List.not_mem_nil
  | append_singleton is i ih =>
      intro e he
      rw [Machine.run_concat] at he
      obtain ⟨e', he', hvalidity, hevent⟩ :=
        mem_input_step (wellFormed_run definitions output is) he
      rw [hvalidity, hevent]
      rcases List.mem_append.mp he' with he' | he'
      · exact ih hwf.of_append hnone.of_append e' he'
      · have hall : e' ∈ arrivals (is ++ [i]) := by
          rw [arrivals_append]
          exact List.mem_append_right _ he'
        exact ⟨hwf.2 e' hall, hnone e' hall⟩

theorem pairInv_run (definitions : List BasicDefinition) (output : Output) {is : List Input}
    (hwf : WellFormedInput is) (hnone : NoneUngrabbed is)
    (hsteps : Machine.Steps step CollectsBeyondReleaseHeld (initial definitions output) is) :
    (Machine.run step (initial definitions output) is).PairInv := by
  induction is using List.reverseRecOn with
  | nil =>
      have hnil : (initial definitions output).processed = [] := rfl
      refine ⟨fun before d between u after heq => ?_, fun d hd => ?_⟩
      · simp [hnil] at heq
      · obtain ⟨_, before, between, heq, _⟩ := hd
        simp [hnil] at heq
  | append_singleton is i ih =>
      rw [Machine.steps_append] at hsteps
      have hclean := inputClean_run definitions output hwf.of_append hnone.of_append
      have halternate := (alternate_of_map_key_eq (history_run definitions output is)).mpr
        hwf.of_append.1
      rw [Machine.run_concat]
      exact pairInv_step (wellFormed_run definitions output is) hclean halternate hsteps.2.1
        (ih hwf.of_append hnone.of_append hsteps.1)

/-- What leaves the input queue is what the loop made of the front entry, and it is copied to the
output queue unless it has been consumed. -/
theorem processed_manipulate {c : Connection} (hwf : c.WellFormed) (now : AbsoluteTime)
    (reorder : Bool) :
    (c.manipulate now reorder).processed = c.processed ∨
      ∃ front rest, c.input.events = front :: rest ∧
        let h := c.handleFront front rest now
        (c.manipulate now reorder).processed = c.processed ++ [h.front] ∧
          (Basic.Delayed front h.front ∨ Basic.Consumed front h.front) ∧
          (c.manipulate now reorder).output = copyFront h.front reorder h.output := by
  unfold manipulate
  cases hevents : c.input.events with
  | nil => exact Or.inl rfl
  | cons front rest =>
      dsimp only
      split_ifs with hwaits
      · exact Or.inl rfl
      · refine Or.inr ⟨front, rest, rfl, rfl, ?_, rfl⟩
        rcases c.handleFront_cases front rest now with hfront | ⟨-, hfront, -⟩
        · rw [hfront] at hwaits ⊢
          unfold manipulateFront at hwaits ⊢
          split_ifs at hwaits ⊢
          · exact Or.inr ⟨front.eventTimeStamp.inputDelayDuration, rfl⟩
          · cases Slot.manipulateAll_spec rest now hwf front c.output with
            | passed delayed => exact Or.inl delayed
            | captured _ _ _ consumed => exact Or.inr consumed
            | released _ consumed => exact Or.inr consumed
        · exact Or.inl ⟨front.eventTimeStamp.inputDelayDuration, hfront⟩

/-- **Pass-through pairing.**  In a well-formed run without ungrabbed devices, in which no capture
collects an unheld key from beyond its release, the two entries of every pair are both still valid
when they leave the input queue, or both consumed; the valid ones are copied to the output queue,
behind what the manipulators have posted, and nothing else is. -/
theorem run_paired (definitions : List BasicDefinition) (output : Output) (is : List Input)
    (hwf : WellFormedInput is) (hnone : NoneUngrabbed is)
    (hsteps : Machine.Steps step CollectsBeyondReleaseHeld (initial definitions output) is) :
    (∀ before after, is = before ++ after →
      Paired (Machine.run step (initial definitions output) before).processed) ∧
    ∀ before now reorder after, is = before ++ .manipulate now reorder :: after →
      let c := Machine.run step (initial definitions output) before
      let c' := Machine.run step (initial definitions output) (before ++ [.manipulate now reorder])
      c'.processed = c.processed ∨
        ∃ front rest, c.input.events = front :: rest ∧
          let h := c.handleFront front rest now
          c'.processed = c.processed ++ [h.front] ∧
            (Basic.Delayed front h.front ∨ Basic.Consumed front h.front) ∧
            c'.output = copyFront h.front reorder h.output := by
  constructor
  · rintro before after rfl
    rw [Machine.steps_append] at hsteps
    exact (pairInv_run definitions output hwf.of_append hnone.of_append hsteps.1).paired
  · rintro before now reorder after rfl
    dsimp only
    rw [Machine.run_concat]
    exact processed_manipulate (wellFormed_run definitions output before) now reorder

/-- While no key_up is queued before another entry of its key, nothing is collected from beyond a
key_up. -/
theorem collectsBeyondReleaseHeld_of_pairwise {c : Connection}
    (h : c.input.events.Pairwise fun u e => u.eventType = .keyUp → u.fromEvent ≠ e.fromEvent)
    (i : Input) : c.CollectsBeyondReleaseHeld i := by
  rintro now reorder - front rest slot hc before e after hwindow - ⟨u, hu, hup, hsame⟩
  rw [hc.events] at h
  have hsublist : (window (slot.basic.endTimeStamp front) (front :: rest)).Sublist
      (front :: rest) := (List.takeWhile_sublist _).trans List.filter_sublist
  have hpairwise := h.sublist hsublist
  rw [hwindow, List.pairwise_append] at hpairwise
  exact absurd hsame (hpairwise.2.2 u hu e List.mem_cons_self hup)

end Run

/-- `a` and `b` go down together and up together, while a manipulator maps from both. -/
def pressedTogether [Exprtk] : List Input :=
  [.arrive (keyEntry 4 .keyDown 0), .arrive (keyEntry 5 .keyDown 1), .manipulate 10 false,
    .manipulate 10 false, .arrive (keyEntry 5 .keyUp 20), .arrive (keyEntry 4 .keyUp 21),
    .manipulate 30 false, .manipulate 30 false]

/-- The key_down of `a` collects the queued key_down of `b`, and all four entries are consumed. -/
theorem run_paired_mapped :
    ∃ (_ : Exprtk) (_ : SystemClock) (_ : MachTimebase),
      let c := Machine.run step (initial [simultaneous [4, 5] false] ⟨{}, World.initial⟩)
        pressedTogether
      c.processed.map Entry.validity = [.invalid, .invalid, .invalid, .invalid] ∧
        Paired c.processed := by
  refine ⟨.singleVariable, ⟨fun _ => 0⟩, ⟨1, 1⟩, ?_⟩
  let _ : Exprtk := .singleVariable
  let _ : SystemClock := ⟨fun _ => 0⟩
  let _ : MachTimebase := ⟨1, 1⟩
  refine ⟨by decide, (run_paired [simultaneous [4, 5] false] ⟨{}, World.initial⟩ pressedTogether
    ⟨by decide, by decide⟩ (by unfold NoneUngrabbed; decide) ?_).1 _ [] (List.append_nil _).symm⟩
  exact ⟨collectsBeyondReleaseHeld_of_pairwise (by decide) _,
    collectsBeyondReleaseHeld_of_pairwise (by decide) _,
    collectsBeyondReleaseHeld_of_pairwise (by decide) _,
    collectsBeyondReleaseHeld_of_pairwise (by decide) _,
    collectsBeyondReleaseHeld_of_pairwise (by decide) _,
    collectsBeyondReleaseHeld_of_pairwise (by decide) _,
    collectsBeyondReleaseHeld_of_pairwise (by decide) _,
    collectsBeyondReleaseHeld_of_pairwise (by decide) _, trivial⟩

/-! ### A key_up that is swallowed -/

/-- `b` goes down and is passed through when the simultaneous threshold of 50 ms is over.  Then `a`
goes down, `b` goes up and down again, and all three are queued. -/
def repressed [Exprtk] : List Input :=
  [.arrive (keyEntry 5 .keyDown 0), .manipulate 50000000 false,
    .arrive (keyEntry 4 .keyDown 50000001), .arrive (keyEntry 5 .keyUp 50000002),
    .arrive (keyEntry 5 .keyDown 50000003), .manipulate 50000003 false,
    .manipulate 50000003 false]

/-- A manipulator from `a` and `b` collects the second key_down of `b` and swallows the key_up of
the first. -/
theorem not_paired_repressed :
    ∃ (_ : Exprtk) (_ : SystemClock) (_ : MachTimebase),
      ¬ ∀ (definitions : List BasicDefinition) (output : Output) (is : List Input),
        WellFormedInput is → NoneUngrabbed is → ∀ before after, is = before ++ after →
          Paired (Machine.run step (initial definitions output) before).processed := by
  refine ⟨.singleVariable, ⟨fun _ => 0⟩, ⟨1, 1⟩, fun h => ?_⟩
  have hpaired := h [simultaneous [4, 5] false]
    (@Output.mk .singleVariable {} (@World.initial .singleVariable)) (@repressed .singleVariable)
    ⟨by decide, by decide⟩ (by unfold NoneUngrabbed; decide) _ [] (List.append_nil _).symm
  have hiff := hpaired [] { keyEntry 5 .keyDown 0 with eventTimeStamp := ⟨0, 50000000⟩ }
    [{ keyEntry 4 .keyDown 50000001 with validity := .invalid }]
    { keyEntry 5 .keyUp 50000002 with validity := .invalid } [] (by decide) rfl rfl rfl (by decide)
  exact absurd (hiff.mp rfl) (by decide)

end Connection

end Karabiner
