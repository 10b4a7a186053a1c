import Karabiner.Manipulator.ManipulatorManager.Presses

/-!
# Who owns a pressed key

A key_down that is taken ahead of time by a scan stays in the input queue, where the scan of another
manipulator can collect it again.  `Connection.exclusive_iff` says exactly when no from event ends
up with two presses: every capture finds the other key_downs that it collects unheld.
-/

namespace Karabiner

namespace Connection

/-! ### Well-formed input -/

/-- A key may only go down when it is up, and only go up when it is down: the keys that are down
after an entry. -/
def press (down : Finset FromEvent) (key : FromEvent × EventType) : Option (Finset FromEvent) :=
  match key.2 with
  | .keyDown => if key.1 ∈ down then none else some (insert key.1 down)
  | .keyUp => if key.1 ∈ down then some (down.erase key.1) else none
  | .single => some down

/-- What the scans and the lists of from events look at. -/
def key (e : Entry) : FromEvent × EventType := (e.fromEvent, e.eventType)

/-- The key_downs and key_ups of every key alternate, a key_down first. -/
def Alternate (entries : List Entry) : Prop := ((entries.map key).foldlM press ∅).isSome = true

instance (entries : List Entry) : Decidable (Alternate entries) :=
  inferInstanceAs (Decidable (_ = true))

section Arrivals

variable [Exprtk]

/-- The entries that arrive. -/
def arrivals (is : List Input) : List Entry :=
  is.filterMap fun
    | .arrive e => some e
    | _ => none

/-- The input is well-formed: it alternates, and no entry is invalid. -/
def WellFormedInput (is : List Input) : Prop :=
  Alternate (arrivals is) ∧ ∀ e ∈ arrivals is, e.validity = .valid

/-- No device is ungrabbed. -/
def NoneUngrabbed (is : List Input) : Prop := ∀ e ∈ arrivals is, e.event ≠ .deviceUngrabbed

end Arrivals

/-! ### Exclusive ownership -/

section Exclusive

variable [Exprtk] [SystemClock] [MachTimebase]

omit [SystemClock] [MachTimebase] in
/-- Every from event belongs to at most one press of all manipulators. -/
def Exclusive (c : Connection) : Prop := ∀ fe, c.holders fe ≤ 1

/-- If the step captures the front entry, no press holds another from event that the capture
collects. -/
def CollectsUnheld (c : Connection) (i : Input) : Prop :=
  ∀ now reorder, i = .manipulate now reorder →
    ∀ front rest slot, c.Captures now front rest slot →
      ∀ e, slot.basic.Collects front rest e → e.fromEvent ≠ front.fromEvent →
        c.holders e.fromEvent = 0

theorem Quiet.collectsUnheld {c : Connection} {i : Input} (h : c.Quiet i) : c.CollectsUnheld i :=
  fun now reorder hi front rest slot hc => absurd hc (h now reorder hi front rest slot)

/-- A step keeps exclusiveness exactly when it collects unheld keys only. -/
theorem exclusive_step_iff {c : Connection} (hwf : c.WellFormed) (hex : c.Exclusive)
    (i : Input) : (c.step i).Exclusive ↔ c.CollectsUnheld i := by
  have hsame (held : (c.step i).holders = c.holders) : (c.step i).Exclusive := by
    intro fe
    rw [held]
    exact hex fe
  cases effect_step hwf i with
  | idle held _ _ quiet => exact iff_of_true (hsame held) quiet.collectsUnheld
  | passed _ _ _ _ _ held _ quiet => exact iff_of_true (hsame held) quiet.collectsUnheld
  | swallowed front front' rest takes _ held _ down pos =>
      refine iff_of_true (hsame held) ?_
      rintro now reorder - front₂ rest₂ slot hc
      obtain ⟨rfl, rfl⟩ := List.cons_eq_cons.mp (takes.events.symm.trans hc.events)
      have hfree := hc.free
      rw [(c.alreadyManipulated_iff front).mpr ⟨down, pos⟩] at hfree
      cases hfree
  | captured now reorder front front' rest slot fromEvents input takes _ captures held valid
      unheld collected =>
      constructor
      · rintro hafter now₂ reorder₂ rfl front₂ rest₂ slot₂ hc e he hne
        cases input
        obtain ⟨rfl, rfl⟩ := List.cons_eq_cons.mp (captures.events.symm.trans hc.events)
        obtain rfl : slot = slot₂ := Option.some.inj (captures.captor.symm.trans hc.captor)
        have hle := hafter e.fromEvent
        rw [held, if_pos ((collected _).mpr ⟨e, he, rfl⟩)] at hle
        omega
      · intro hclear fe
        rw [held]
        split_ifs with hfe
        · obtain ⟨e, he, rfl⟩ := (collected fe).mp hfe
          by_cases hne : e.fromEvent = front.fromEvent
          · rw [hne, unheld]
          · rw [hclear now reorder input front rest slot captures e he hne]
        · exact hex fe
  | released front front' rest takes _ _ up _ held =>
      refine iff_of_true (fun fe => ?_) ?_
      · rw [held]
        exact (Nat.sub_le _ _).trans (hex fe)
      · rintro now reorder - front₂ rest₂ slot hc
        obtain ⟨rfl, rfl⟩ := List.cons_eq_cons.mp (takes.events.symm.trans hc.events)
        exact absurd (hc.down.symm.trans up) (by decide)
  | ungrabbed front rest _ _ quiet held =>
      refine iff_of_true (fun fe => ?_) quiet.collectsUnheld
      rw [held]
      split_ifs
      · exact Nat.zero_le 1
      · exact hex fe

/-- While every key has one owner, a key_up leaves its key without an owner. -/
theorem holders_after_keyUp {c : Connection} (hwf : c.WellFormed) (hex : c.Exclusive)
    (now : AbsoluteTime) (reorder : Bool) {front : Entry} {rest : List Entry}
    (hevents : c.input.events = front :: rest) (valid : front.validity = .valid)
    (up : front.eventType = .keyUp) :
    (c.step (.manipulate now reorder)).holders front.fromEvent = 0 := by
  have htaken {front' : Entry} {rest' : List Entry} (h : c.input.events = front' :: rest') :
      front = front' := (List.cons_eq_cons.mp (hevents.symm.trans h)).1
  cases effect_step hwf (.manipulate now reorder) with
  | idle _ _ _ _ waits =>
      exact absurd ((waits now reorder rfl front rest hevents).symm.trans up) (by decide)
  | passed front₂ _ _ takes _ held unheld =>
      obtain rfl := htaken takes.events
      rw [held]
      exact unheld valid (by rw [up]; decide)
  | swallowed front₂ _ _ takes _ _ _ down =>
      obtain rfl := htaken takes.events
      exact absurd (down.symm.trans up) (by decide)
  | captured _ _ front₂ _ _ _ _ _ takes _ captures =>
      obtain rfl := htaken takes.events
      exact absurd (captures.down.symm.trans up) (by decide)
  | released front₂ _ _ takes _ _ _ _ held =>
      obtain rfl := htaken takes.events
      have hle := hex front.fromEvent
      rw [held, if_pos rfl]
      omega
  | ungrabbed front₂ rest₂ takes event _ held =>
      obtain rfl := htaken takes.events
      exact (held _).trans (if_pos rfl)

/-- **Exclusive ownership.**  In every state of a run every from event belongs to at most one press,
if and only if every capture of the run collects, besides its front entry, only from events that
no press holds.  In such a run, no press holds a from event once its key_up has been processed. -/
theorem exclusive_iff (definitions : List BasicDefinition) (output : Output) (is : List Input) :
    ((∀ before after, is = before ++ after →
        (Machine.run step (initial definitions output) before).Exclusive) ↔
      Machine.Steps step CollectsUnheld (initial definitions output) is) ∧
    (Machine.Steps step CollectsUnheld (initial definitions output) is →
      ∀ before now reorder after, is = before ++ .manipulate now reorder :: after →
        ∀ front rest,
          (Machine.run step (initial definitions output) before).input.events = front :: rest →
          front.validity = .valid → front.eventType = .keyUp →
          (Machine.run step (initial definitions output)
            (before ++ [.manipulate now reorder])).holders front.fromEvent = 0) := by
  obtain ⟨hwf, hnone⟩ := initial_spec definitions output
  have hiff := @Machine.steps_iff _ _ _ _ Exclusive WellFormed
    (fun _ i hwf _ => wellFormed_step hwf i) (fun _ i hwf hex => exclusive_step_iff hwf hex i)
    _ hwf (fun fe => (hnone fe).le.trans (Nat.zero_le 1)) is
  refine ⟨hiff, fun hsteps before now reorder after his front rest hevents valid up => ?_⟩
  rw [Machine.run_concat]
  exact holders_after_keyUp (wellFormed_run definitions output before)
    (hiff.mpr hsteps before _ his) now reorder hevents valid up

end Exclusive

/-! ### Two overlapping definitions -/

/-- A key of the keyboard page goes down or up. -/
def keyEntry (usage : ℤ) (eventType : EventType) (timeStamp : AbsoluteTime) : Entry :=
  let e : Event := .momentarySwitchEvent ⟨⟨UsagePage.keyboardOrKeypad, usage⟩⟩
  ⟨1, ⟨timeStamp, 0⟩, e, eventType, e, .original, false, .valid⟩

/-- A manipulator from some keys pressed simultaneously. -/
def simultaneous (usages : List ℤ) (detectKeyDownUninterruptedly : Bool) : BasicDefinition where
  from_ :=
    { eventDefinitions := usages.map fun usage =>
        .momentarySwitchEvent ⟨⟨UsagePage.keyboardOrKeypad, usage⟩⟩
      simultaneousOptions :=
        { detectKeyDownUninterruptedly := detectKeyDownUninterruptedly } }

/-- The keys `a`, `b` and `c` are queued.  One manipulator maps from `a` and `c`, another from `b`
and `c`. -/
def overlapping [Exprtk] : List Input :=
  [.arrive (keyEntry 4 .keyDown 0), .arrive (keyEntry 5 .keyDown 1),
    .arrive (keyEntry 6 .keyDown 2), .manipulate 10 false, .manipulate 10 false]

/-- Both manipulators capture `c`. -/
theorem not_exclusive_overlapping :
    ∃ (_ : Exprtk) (_ : SystemClock) (_ : MachTimebase),
      ¬ ∀ (definitions : List BasicDefinition) (output : Output) (is : List Input),
        WellFormedInput is → NoneUngrabbed is → ∀ before after, is = before ++ after →
          (Machine.run step (initial definitions output) before).Exclusive := by
  refine ⟨.singleVariable, ⟨fun _ => 0⟩, ⟨1, 1⟩, fun h => ?_⟩
  have hc := h [simultaneous [4, 6] true, simultaneous [5, 6] false]
    (@Output.mk .singleVariable {} (@World.initial .singleVariable)) (@overlapping .singleVariable)
    ⟨by decide, by decide⟩ (by unfold NoneUngrabbed; decide) _ [] (List.append_nil _).symm
    (keyEntry 6 .keyDown 2).fromEvent
  revert hc
  decide

end Connection

end Karabiner
