import Karabiner.Manipulator.Basic.Balance
import Karabiner.Manipulator.Basic.Sends

/-!
# Delayed actions

`to_delayed_action` keeps the press of its last setup and a current id.  Every key_down that the
manipulator sees cancels: it moves the current id past all callbacks and posts for the press that is
kept, which is let go.  A callback posts only under the current id, and lets the press go as well.

* `delayedActionEvents` — the setups and postings of a step, each with its press.
* `Delays` — all that a step can do to the press that is kept and to the current id.
* `Basic.run_delayedAction` — **a setup is invoked or canceled at most once, never both**, stale
  callbacks post nothing, a key_down in between rules out the invocation, and every posting is
  balanced.
-/

namespace Karabiner

namespace Basic

/-! ### Setups and postings -/

/-- The press that `post_events` would post for: that of the last setup, until something has been
posted. -/
def delayedPress (b : Basic) : Option ℕ :=
  match b.toDelayedAction.frontInputEvent,
    b.toDelayedAction.currentManipulatedOriginalEvent with
  | some _, some id => some id
  | _, _ => none

/-- What `to_delayed_action` does on behalf of a press.  A setup and an invocation come with the id
that the callback has captured. -/
inductive DelayedActionEvent
  | setup (press timer : ℕ)
  | canceled (press : ℕ)
  | invoked (press timer : ℕ)
deriving DecidableEq, Repr

/-- The event is a posting on behalf of the press. -/
def DelayedActionEvent.Posts (e : DelayedActionEvent) (press : ℕ) : Prop :=
  e = canceled press ∨ ∃ timer, e = invoked press timer

variable [Exprtk] [SystemClock] [MachTimebase]

/-- What `to_delayed_action` does in one step.  A key_down cancels first; it is set up for if it is
manipulated and a list is not empty. -/
def delayedActionEvents (s : State) (i : Input) : List DelayedActionEvent :=
  match s.basic.definition.toDelayedAction, i with
  | some action, .manipulate front rest now =>
    let r := s.basic.manipulate front rest s.output now
    if front.eventType = .keyDown then
      s.basic.delayedPress.toList.map .canceled ++
        if r.result = .manipulated &&
            !(action.toIfInvoked.isEmpty && action.toIfCanceled.isEmpty) then
          r.basic.delayedPress.toList.map (.setup · r.basic.toDelayedAction.currentId)
        else []
    else []
  | some _, .fireDelayedAction timer =>
    if timer ∈ s.basic.toDelayedAction.pending && s.basic.toDelayedAction.currentId = timer then
      s.basic.delayedPress.toList.map (.invoked · timer)
    else []
  | _, _ => []

/-- The output queue right after `to_delayed_action` had its turn in a step. -/
def delayedActionOutput (s : State) : Input → Output
  | .manipulate front _ _ => (s.basic.observe front s.output).2
  | .fireDelayedAction timer => (s.basic.fireDelayedAction timer s.output).2
  | _ => s.output

/-- The setups and postings of a run. -/
def delayedActionTrace (definition : BasicDefinition) (output : Output) (is : List Input) :
    List DelayedActionEvent :=
  Machine.outputs (fun s i => (step s i, delayedActionEvents s i)) (.initial definition output) is

/-! ### What a step can do -/

omit [Exprtk] [SystemClock] [MachTimebase] in
/-- The part of a manipulator that `to_delayed_action` works on is the same. -/
structure SameDelayed (b b' : Basic) : Prop where
  definition : b'.definition = b.definition
  press : b'.delayedPress = b.delayedPress
  currentId : b'.toDelayedAction.currentId = b.toDelayedAction.currentId
  length : b'.objects.length = b.objects.length

omit [Exprtk] [SystemClock] [MachTimebase] in
/-- All that a step can do. -/
inductive Delays (b b' : Basic) : List DelayedActionEvent → Prop
  | idle (press : b'.delayedPress = b.delayedPress)
      (currentId : b'.toDelayedAction.currentId = b.toDelayedAction.currentId)
      (length : b.objects.length ≤ b'.objects.length) : Delays b b' []
  | cancels (press : b'.delayedPress = none)
      (currentId : b'.toDelayedAction.currentId = b.toDelayedAction.currentId + 1)
      (length : b.objects.length ≤ b'.objects.length) :
      Delays b b' (b.delayedPress.toList.map .canceled)
  | setsUp (press : b'.delayedPress = some b.objects.length)
      (currentId : b'.toDelayedAction.currentId = b.toDelayedAction.currentId + 2)
      (length : b.objects.length < b'.objects.length) :
      Delays b b' (b.delayedPress.toList.map .canceled ++
        [.setup b.objects.length b'.toDelayedAction.currentId])
  | invokes {press : ℕ} (posted : b.delayedPress = some press) (press' : b'.delayedPress = none)
      (currentId : b'.toDelayedAction.currentId = b.toDelayedAction.currentId)
      (length : b.objects.length ≤ b'.objects.length) :
      Delays b b' [.invoked press b.toDelayedAction.currentId]

section Same

omit [SystemClock] [MachTimebase]

variable {b b' b'' : Basic}

omit [Exprtk] in
theorem SameDelayed.refl (b : Basic) : SameDelayed b b := ⟨rfl, rfl, rfl, rfl⟩

omit [Exprtk] in
theorem SameDelayed.trans (h : SameDelayed b b') (h' : SameDelayed b' b'') : SameDelayed b b'' :=
  ⟨h'.definition.trans h.definition, h'.press.trans h.press, h'.currentId.trans h.currentId,
    h'.length.trans h.length⟩

omit [Exprtk] in
/-- `alone_` does not concern `to_delayed_action`. -/
theorem sameDelayed_unsetAloneIfNeeded (b : Basic) (event : Event) (eventType : EventType) :
    SameDelayed b (b.unsetAloneIfNeeded event eventType) := by
  unfold unsetAloneIfNeeded
  split_ifs
  · exact ⟨rfl, rfl, rfl, List.length_mapIdx⟩
  · exact .refl b

omit [Exprtk] in
theorem sameDelayed_cancelHeldDown (b : Basic) (front : Entry) :
    SameDelayed b (b.cancelHeldDown front) := by
  unfold cancelHeldDown
  split_ifs <;> exact ⟨rfl, rfl, rfl, rfl⟩

omit [Exprtk] in
theorem sameDelayed_setupHeldDown (b : Basic) (front : Entry) (id : ℕ) :
    SameDelayed b (b.setupHeldDown front id) := by
  unfold setupHeldDown
  split
  · exact .refl b
  · dsimp only
    split_ifs <;> exact ⟨rfl, rfl, rfl, rfl⟩

omit [Exprtk] in
/-- Releasing a from event leaves `to_delayed_action` alone. -/
theorem sameDelayed_eraseFromEvent (b : Basic) (id : ℕ) (fe : FromEvent) :
    SameDelayed b (b.eraseFromEvent id fe) := by
  unfold eraseFromEvent
  split
  · exact .refl b
  · exact ⟨rfl, rfl, rfl, List.length_set⟩

/-- Posting for a press leaves `to_delayed_action` alone. -/
theorem sameDelayed_send (b : Basic) (id : ℕ) (output : Output) (f : EventSender → EventSender) :
    SameDelayed b (b.send id output f).1 := by
  unfold send
  split
  · exact .refl b
  · exact ⟨rfl, rfl, rfl, List.length_set⟩

end Same

theorem sameDelayed_fireHeldDown (b : Basic) (heldDownId : ℕ) (output : Output) :
    SameDelayed b (b.fireHeldDown heldDownId output).1 := by
  have hcases := b.firesHeldDown heldDownId output
  generalize b.fireHeldDown heldDownId output = r at hcases
  cases hcases with
  | cancelled => exact .refl b
  | idle => exact ⟨rfl, rfl, rfl, rfl⟩
  | @posts b₁ _ _ id herased =>
      have hsame : SameDelayed b b₁ := by
        rw [herased]
        exact ⟨rfl, rfl, rfl, rfl⟩
      exact hsame.trans (b₁.sameDelayed_send id output _)

/-- `post_events` lets the press go. -/
theorem postDelayedEvents_spec (b : Basic) (events : List ToEventDefinition) (output : Output) :
    let b' := (b.postDelayedEvents events output).1
    b'.definition = b.definition ∧ b'.delayedPress = none ∧
      b'.toDelayedAction.currentId = b.toDelayedAction.currentId ∧
      b'.objects.length = b.objects.length := by
  have hnone (b' : Basic) : ({ b' with
      toDelayedAction.currentManipulatedOriginalEvent := none } : Basic).delayedPress = none := by
    unfold delayedPress
    split <;> simp_all
  unfold postDelayedEvents
  dsimp only
  split
  · rename_i front id _ _
    have hsame := b.sameDelayed_send id output (BasicDefinition.postDelayedAction front events)
    exact ⟨hsame.definition, hnone _, hsame.currentId, hsame.length⟩
  · exact ⟨rfl, hnone b, rfl, rfl⟩

/-- `post_events` without a press posts nothing. -/
theorem postDelayedEvents_of_delayedPress_eq_none {b : Basic} (h : b.delayedPress = none)
    (events : List ToEventDefinition) (output : Output) :
    (b.postDelayedEvents events output).2 = output := by
  unfold postDelayedEvents
  dsimp only
  split
  · rename_i front id hfront hcurrent
    simp [delayedPress, hfront, hcurrent] at h
  · rfl

/-- A key_down cancels, whatever is done with it afterwards. -/
theorem observe_keyDown_eq {b : Basic} {front : Entry} {action : ToDelayedAction}
    (haction : b.definition.toDelayedAction = some action) (down : front.eventType = .keyDown)
    (output : Output) :
    ∃ b₁ : Basic, SameDelayed b b₁ ∧ b.observe front output =
      ({ b₁ with toDelayedAction.currentId := b₁.toDelayedAction.currentId + 1 } :
        Basic).postDelayedEvents action.toIfCanceled output := by
  have hsame : SameDelayed b
      ((b.unsetAloneIfNeeded front.event front.eventType).cancelHeldDown front) :=
    (b.sameDelayed_unsetAloneIfNeeded front.event front.eventType).trans
      (sameDelayed_cancelHeldDown _ front)
  refine ⟨_, hsame, ?_⟩
  unfold observe
  generalize (b.unsetAloneIfNeeded front.event front.eventType).cancelHeldDown front = b₁ at hsame
  have hdef : b₁.definition.toDelayedAction = some action := by rw [hsame.definition, haction]
  unfold cancelDelayedAction
  simp only [hdef, down, if_true]

/-- A key_down cancels what has been set up, and takes the next id. -/
theorem observe_keyDown {b : Basic} {front : Entry} (action : b.definition.toDelayedAction.isSome)
    (down : front.eventType = .keyDown) (output : Output) :
    let b' := (b.observe front output).1
    b'.definition = b.definition ∧ b'.delayedPress = none ∧
      b'.toDelayedAction.currentId = b.toDelayedAction.currentId + 1 ∧
      b'.objects.length = b.objects.length := by
  obtain ⟨a, ha⟩ := Option.isSome_iff_exists.mp action
  obtain ⟨b₁, hsame, heq⟩ := observe_keyDown_eq ha down output
  obtain ⟨hdefinition, hpress, hid, hlength⟩ := postDelayedEvents_spec
    { b₁ with toDelayedAction.currentId := b₁.toDelayedAction.currentId + 1 } a.toIfCanceled output
  rw [← heq] at hdefinition hpress hid hlength
  refine ⟨hdefinition.trans hsame.definition, hpress, hid.trans ?_, hlength.trans hsame.length⟩
  show b₁.toDelayedAction.currentId + 1 = _
  rw [hsame.currentId]

/-- Other entries do not touch `to_delayed_action`. -/
theorem observe_other {b : Basic} {front : Entry}
    (h : b.definition.toDelayedAction = none ∨ front.eventType ≠ .keyDown) (output : Output) :
    SameDelayed b (b.observe front output).1 ∧ (b.observe front output).2 = output := by
  have hsame : SameDelayed b
      ((b.unsetAloneIfNeeded front.event front.eventType).cancelHeldDown front) :=
    (b.sameDelayed_unsetAloneIfNeeded front.event front.eventType).trans
      (sameDelayed_cancelHeldDown _ front)
  unfold observe
  generalize (b.unsetAloneIfNeeded front.event front.eventType).cancelHeldDown front = b₁ at hsame
  have hcases := b₁.cancelsDelayedAction front output
  generalize b₁.cancelDelayedAction front output = r at hcases
  cases hcases with
  | idle => exact ⟨hsame, rfl⟩
  | posts _ hdefinition hdown =>
      rcases h with hnone | hother
      · rw [hsame.definition, hnone] at hdefinition
        cases hdefinition
      · exact absurd hdown hother

omit [SystemClock] [MachTimebase] in
/-- The end of `manipulate` sets up for a key_down, if there is something to post. -/
theorem finish_delayed (b : Basic) (front : Entry) (id : ℕ) (f : Entry → EventSender → EventSender)
    (output : Output) :
    let b' := (b.finish front id f output).basic
    (b.finish front id f output).result = .manipulated ∧ b'.objects.length = b.objects.length ∧
      ((∃ action, b.definition.toDelayedAction = some action ∧ front.eventType = .keyDown ∧
          (action.toIfInvoked.isEmpty && action.toIfCanceled.isEmpty) = false) ∧
        b'.delayedPress = some id ∧
          b'.toDelayedAction.currentId = b.toDelayedAction.currentId + 1 ∨
      (∀ action, b.definition.toDelayedAction = some action → front.eventType = .keyDown →
          (action.toIfInvoked.isEmpty && action.toIfCanceled.isEmpty) = true) ∧
        SameDelayed b b') := by
  have hsame : SameDelayed b
      ((b.send id output (f { front with validity := .invalid })).1.setupHeldDown
        { front with validity := .invalid } id) :=
    (b.sameDelayed_send id output _).trans (sameDelayed_setupHeldDown _ _ id)
  unfold finish
  dsimp only
  generalize (b.send id output (f { front with validity := .invalid })).1.setupHeldDown
    { front with validity := .invalid } id = b₁ at hsame
  unfold setupDelayedAction
  rw [hsame.definition]
  cases haction : b.definition.toDelayedAction with
  | none => exact ⟨rfl, hsame.length, Or.inr ⟨by simp, hsame⟩⟩
  | some action =>
      dsimp only
      split_ifs with hskip
      · refine ⟨rfl, hsame.length, Or.inr ⟨fun a ha hdown => ?_, hsame⟩⟩
        obtain rfl := Option.some.inj ha
        simpa [hdown] using hskip
      · simp only [Bool.or_eq_true, decide_eq_true_eq, not_or, not_not, Bool.not_eq_true] at hskip
        refine ⟨rfl, hsame.length, Or.inl ⟨⟨action, rfl, hskip.1, hskip.2⟩, rfl, ?_⟩⟩
        show b₁.toDelayedAction.currentId + 1 = _
        rw [hsame.currentId]

/-- A key_down leaves the manipulator alone after the cancellation, or is captured. -/
theorem manipulate_keyDown_cases (b : Basic) {front : Entry} (down : front.eventType = .keyDown)
    (rest : List Entry) (output : Output) (now : AbsoluteTime) :
    let b₁ := (b.observe front output).1
    let r := b.manipulate front rest output now
    r.basic = b₁ ∧ r.result ≠ .manipulated ∨
      ∃ front' fromEvents fromMandatoryModifiers output',
        front'.eventType = .keyDown ∧
          r = b₁.capture front' fromEvents fromMandatoryModifiers output' := by
  have hcases := b.manipulates_manipulate front rest output now
  generalize b.observe front output = observed at hcases
  obtain ⟨b₁, output₁⟩ := observed
  dsimp only at hcases ⊢
  generalize b.manipulate front rest output now = r at hcases
  cases hcases with
  | passed => exact Or.inl ⟨rfl, by simp⟩
  | waits => exact Or.inl ⟨rfl, by simp⟩
  | captured hdelayed =>
      obtain ⟨d, rfl⟩ := exists_inputDelay hdelayed
      exact Or.inr ⟨{ front with eventTimeStamp.inputDelayDuration := d }, _, _, _, down, rfl⟩
  | released _ up => exact absurd (down.symm.trans up) (by decide)

/-- An entry that is no key_down leaves `to_delayed_action` alone. -/
theorem sameDelayed_manipulate {b : Basic} {front : Entry} (h : front.eventType ≠ .keyDown)
    (rest : List Entry) (output : Output) (now : AbsoluteTime) :
    SameDelayed b (b.manipulate front rest output now).basic := by
  have hsame := (observe_other (b := b) (Or.inr h) output).1
  have hcases := b.manipulates_manipulate front rest output now
  generalize b.observe front output = observed at hsame hcases
  obtain ⟨b₁, output₁⟩ := observed
  dsimp only at hsame hcases
  generalize b.manipulate front rest output now = r at hcases
  cases hcases with
  | passed => exact hsame
  | waits => exact hsame
  | captured _ _ _ down => exact absurd down h
  | @released id =>
      have herase := hsame.trans (b₁.sameDelayed_eraseFromEvent id front.fromEvent)
      obtain ⟨-, -, ⟨⟨_, _, hdown, _⟩, _⟩ | ⟨_, hfinish⟩⟩ :=
        (b₁.eraseFromEvent id front.fromEvent).finish_delayed front id b₁.definition.postKeyUp
          output₁
      · exact absurd hdown h
      · exact herase.trans hfinish

/-- A capture creates a press, and sets up for it if there is something to post. -/
theorem capture_delayed (b : Basic) {front : Entry} (down : front.eventType = .keyDown)
    (fromEvents : Finset FromEvent) (fromMandatoryModifiers : List ModifierFlag)
    (output : Output) :
    let r := b.capture front fromEvents fromMandatoryModifiers output
    r.result = .manipulated ∧ r.basic.objects.length = b.objects.length + 1 ∧
      ((∃ action, b.definition.toDelayedAction = some action ∧
          (action.toIfInvoked.isEmpty && action.toIfCanceled.isEmpty) = false) ∧
        r.basic.delayedPress = some b.objects.length ∧
          r.basic.toDelayedAction.currentId = b.toDelayedAction.currentId + 1 ∨
      (∀ action, b.definition.toDelayedAction = some action →
          (action.toIfInvoked.isEmpty && action.toIfCanceled.isEmpty) = true) ∧
        r.basic.delayedPress = b.delayedPress ∧
          r.basic.toDelayedAction.currentId = b.toDelayedAction.currentId) := by
  unfold capture
  dsimp only
  generalize hb' : b.pushBack _ = b'
  have hlength : b'.objects.length = b.objects.length + 1 := by
    rw [← hb']
    exact List.length_append
  have hpress : b'.delayedPress = b.delayedPress := by rw [← hb']; rfl
  have hid : b'.toDelayedAction = b.toDelayedAction := by rw [← hb']; rfl
  have hdefinition : b'.definition = b.definition := by rw [← hb']; rfl
  obtain ⟨hresult, hlength', hcases⟩ := b'.finish_delayed front b.objects.length
    (fun front => BasicDefinition.postTo front b.definition.to_) output
  refine ⟨hresult, hlength'.trans hlength, ?_⟩
  rw [hdefinition, hid] at hcases
  rcases hcases with ⟨⟨action, ha, -, hlists⟩, hset, hsetId⟩ | ⟨hnone, hsame⟩
  · exact Or.inl ⟨⟨action, ha, hlists⟩, hset, hsetId⟩
  · refine Or.inr ⟨fun action ha => hnone action ha down, hsame.press.trans hpress, ?_⟩
    rw [hsame.currentId, hid]

omit [Exprtk] [SystemClock] [MachTimebase] in
/-- Without a change `to_delayed_action` does nothing. -/
theorem SameDelayed.idle {b b' : Basic} (h : SameDelayed b b') : Delays b b' [] :=
  .idle h.press h.currentId h.length.ge

/-- An entry that cannot cancel does nothing. -/
theorem delays_manipulate_other (s : State) {front : Entry}
    (h : s.basic.definition.toDelayedAction = none ∨ front.eventType ≠ .keyDown)
    (rest : List Entry) (now : AbsoluteTime) :
    Delays s.basic (s.basic.manipulate front rest s.output now).basic [] := by
  by_cases hdown : front.eventType = .keyDown
  · have haction := h.resolve_right (not_not.mpr hdown)
    obtain ⟨hdefinition, hpress, hid, hlength⟩ := (observe_other h s.output).1
    rcases s.basic.manipulate_keyDown_cases hdown rest s.output now with
      ⟨hbasic, -⟩ | ⟨front', fromEvents, modifiers, output', hdown', hcapture⟩
    · rw [hbasic]
      exact .idle hpress hid hlength.ge
    · rw [hcapture]
      obtain ⟨-, hlength', ⟨⟨a, ha, -⟩, -⟩ | ⟨-, hpress', hid'⟩⟩ :=
        (s.basic.observe front s.output).1.capture_delayed hdown' fromEvents modifiers output'
      · rw [hdefinition, haction] at ha
        cases ha
      · exact .idle (hpress'.trans hpress) (hid'.trans hid) (by omega)
  · exact (sameDelayed_manipulate hdown rest s.output now).idle

/-- **What one entry does**: nothing, a cancellation, or a cancellation and a setup. -/
theorem delays_manipulate (s : State) (front : Entry) (rest : List Entry) (now : AbsoluteTime) :
    Delays s.basic (s.basic.manipulate front rest s.output now).basic
      (delayedActionEvents s (.manipulate front rest now)) := by
  cases haction : s.basic.definition.toDelayedAction with
  | none =>
      simp only [delayedActionEvents, haction]
      exact delays_manipulate_other s (Or.inl haction) rest now
  | some action =>
      simp only [delayedActionEvents, haction]
      by_cases hdown : front.eventType = .keyDown
      · rw [if_pos hdown]
        obtain ⟨hdefinition, hpress, hid, hlength⟩ :=
          observe_keyDown (Option.isSome_of_eq_some haction) hdown s.output
        rcases s.basic.manipulate_keyDown_cases hdown rest s.output now with
          ⟨hbasic, hresult⟩ | ⟨front', fromEvents, modifiers, output', hdown', hcapture⟩
        · rw [hbasic, if_neg (by simp [hresult]), List.append_nil]
          exact .cancels hpress hid hlength.ge
        · rw [hcapture]
          obtain ⟨hresult, hlength', ⟨⟨a, ha, hlists⟩, hpress', hid'⟩ | ⟨hlists, hpress', hid'⟩⟩ :=
            (s.basic.observe front s.output).1.capture_delayed hdown' fromEvents modifiers output'
          · rw [hdefinition, haction] at ha
            obtain rfl := Option.some.inj ha
            rw [hlength] at hpress' hlength'
            rw [if_pos (by simp [hresult, hlists]), hpress']
            exact .setsUp hpress' (by omega) (by omega)
          · have hlists := hlists action (by rw [hdefinition, haction])
            rw [if_neg (by simp [hlists]), List.append_nil]
            exact .cancels (hpress'.trans hpress) (by omega) (by omega)
      · rw [if_neg hdown]
        exact delays_manipulate_other s (Or.inr hdown) rest now

/-- A callback posts under the current id only. -/
theorem fireDelayedAction_cases (b : Basic) (timer : ℕ) (output : Output) :
    (∃ action, b.definition.toDelayedAction = some action ∧ timer ∈ b.toDelayedAction.pending ∧
        b.toDelayedAction.currentId = timer ∧
        b.fireDelayedAction timer output =
          ({ b with toDelayedAction.pending := b.toDelayedAction.pending.erase timer } :
            Basic).postDelayedEvents action.toIfInvoked output) ∨
      (b.definition.toDelayedAction = none ∨ timer ∉ b.toDelayedAction.pending ∨
        b.toDelayedAction.currentId ≠ timer) ∧
        SameDelayed b (b.fireDelayedAction timer output).1 ∧
        (b.fireDelayedAction timer output).2 = output := by
  have hcases := b.firesDelayedAction timer output
  generalize b.fireDelayedAction timer output = r at hcases
  cases hcases with
  | cancelled hpending => exact .inr ⟨.inr (.inl hpending), .refl b, rfl⟩
  | idle hidle => exact .inr ⟨hidle.imp_right .inr, ⟨rfl, rfl, rfl, rfl⟩, rfl⟩
  | @posts b₁ action herased haction hpending hid =>
      exact .inl ⟨action, haction, hpending, hid, by rw [herased]⟩

/-- A callback that is over, or of an older setup, is no event. -/
theorem delayedActionEvents_of_stale {s : State} {timer : ℕ}
    (h : s.basic.definition.toDelayedAction = none ∨ timer ∉ s.basic.toDelayedAction.pending ∨
      s.basic.toDelayedAction.currentId ≠ timer) :
    delayedActionEvents s (.fireDelayedAction timer) = [] := by
  cases haction : s.basic.definition.toDelayedAction with
  | none => simp [delayedActionEvents, haction]
  | some action =>
      have hcond : ¬ (timer ∈ s.basic.toDelayedAction.pending ∧
          s.basic.toDelayedAction.currentId = timer) := by
        rintro ⟨hpending, hid⟩
        rcases h with h | h | h
        · rw [haction] at h
          cases h
        · exact h hpending
        · exact h hid
      simp [delayedActionEvents, haction, hcond]

/-- When the timer of `to_delayed_action` fires, it posts for the press that is set up, or does
nothing. -/
theorem delays_fireDelayedAction (s : State) (timer : ℕ) :
    Delays s.basic (s.basic.fireDelayedAction timer s.output).1
      (delayedActionEvents s (.fireDelayedAction timer)) := by
  rcases s.basic.fireDelayedAction_cases timer s.output with
    ⟨action, haction, hpending, hid, heq⟩ | ⟨hstale, hsame, -⟩
  · obtain ⟨-, hnone, hid', hlength⟩ := postDelayedEvents_spec
      { s.basic with toDelayedAction.pending := s.basic.toDelayedAction.pending.erase timer }
      action.toIfInvoked s.output
    rw [← heq] at hnone hid' hlength
    simp only [delayedActionEvents, haction]
    rw [if_pos (by simp [hpending, hid])]
    cases hpress : s.basic.delayedPress with
    | none => exact .idle (hnone.trans hpress.symm) hid' hlength.ge
    | some press =>
        rw [← hid] at hnone hid' hlength ⊢
        exact .invokes hpress hnone hid' hlength.ge
  · rw [delayedActionEvents_of_stale hstale]
    exact hsame.idle

/-- **All that a step can do to `to_delayed_action`.** -/
theorem delays_step (s : State) (i : Input) :
    Delays s.basic (step s i).basic (delayedActionEvents s i) := by
  have hother (h : delayedActionEvents s i = []) (hsame : SameDelayed s.basic (step s i).basic) :
      Delays s.basic (step s i).basic (delayedActionEvents s i) := by
    rw [h]
    exact hsame.idle
  have hnone (h : ∀ action, s.basic.definition.toDelayedAction = some action →
      delayedActionEvents s i = []) : delayedActionEvents s i = [] := by
    cases haction : s.basic.definition.toDelayedAction with
    | none => simp [delayedActionEvents, haction]
    | some action => exact h action haction
  cases i with
  | manipulate front rest now => exact delays_manipulate s front rest now
  | fireDelayedAction timer => exact delays_fireDelayedAction s timer
  | deviceUngrabbed deviceId =>
      exact hother (hnone fun action h => by simp [delayedActionEvents, h])
        ⟨rfl, rfl, rfl, List.length_mapIdx⟩
  | pointingDeviceEventFromEventTap front =>
      exact hother (hnone fun action h => by simp [delayedActionEvents, h])
        (s.basic.sameDelayed_unsetAloneIfNeeded front.originalEvent front.eventType)
  | setValidity validity =>
      exact hother (hnone fun action h => by simp [delayedActionEvents, h]) ⟨rfl, rfl, rfl, rfl⟩
  | fireHeldDown id =>
      exact hother (hnone fun action h => by simp [delayedActionEvents, h])
        (s.basic.sameDelayed_fireHeldDown id s.output)
  | outside output =>
      exact hother (hnone fun action h => by simp [delayedActionEvents, h]) (.refl _)

/-! ### Runs -/

section Traces

omit [Exprtk] [SystemClock] [MachTimebase]

/-- Two events of a trace in this order: no press is posted for twice or before its setup, and a
later setup is for another press, with a larger id. -/
structure Follows (e e' : DelayedActionEvent) : Prop where
  once : ∀ press, e.Posts press → ¬ e'.Posts press
  ordered : ∀ press timer, e.Posts press → e' ≠ .setup press timer
  setups : ∀ {press timer press' timer'}, e = .setup press timer → e' = .setup press' timer' →
    press ≠ press' ∧ timer < timer'

/-- The trace of a manipulator in the state `b`. -/
structure Tracked (b : Basic) (trace : List DelayedActionEvent) : Prop where
  /-- A setup is for a press that exists, with an id that has been current. -/
  setup : ∀ {press timer}, .setup press timer ∈ trace →
    press < b.objects.length ∧ timer ≤ b.toDelayedAction.currentId
  /-- The press that is kept has been set up under the current id and not been posted for. -/
  kept : ∀ {press}, b.delayedPress = some press →
    .setup press b.toDelayedAction.currentId ∈ trace ∧ ∀ e ∈ trace, ¬ e.Posts press
  /-- A posting is for a press that has been set up. -/
  posts : ∀ e ∈ trace, ∀ press, e.Posts press → ∃ timer, .setup press timer ∈ trace
  /-- An invocation is by the callback of its own setup. -/
  invoked : ∀ {press timer}, .invoked press timer ∈ trace → .setup press timer ∈ trace
  follows : trace.Pairwise Follows

/-- A setup posts nothing. -/
theorem not_posts_setup (press timer press' : ℕ) :
    ¬ (DelayedActionEvent.setup press timer).Posts press' := by
  rintro (h | ⟨timer', h⟩) <;> cases h

/-- A cancellation posts on behalf of its press. -/
theorem posts_canceled_iff (press press' : ℕ) :
    (DelayedActionEvent.canceled press).Posts press' ↔ press = press' := by
  simp [DelayedActionEvent.Posts]

theorem posts_invoked_iff (press timer press' : ℕ) :
    (DelayedActionEvent.invoked press timer).Posts press' ↔ press = press' := by
  simp [DelayedActionEvent.Posts]

/-- A posting for the press that is kept, which is let go. -/
theorem Tracked.post {b b' : Basic} {trace : List DelayedActionEvent} (h : Tracked b trace)
    {press : ℕ} (hpress : b.delayedPress = some press) (hpress' : b'.delayedPress = none)
    (hid : b.toDelayedAction.currentId ≤ b'.toDelayedAction.currentId)
    (hlength : b.objects.length ≤ b'.objects.length) {e : DelayedActionEvent}
    (he : e = .canceled press ∨ e = .invoked press b.toDelayedAction.currentId) :
    Tracked b' (trace ++ [e]) := by
  obtain ⟨hsetup, hfree⟩ := h.kept hpress
  have hposts : ∀ press', e.Posts press' ↔ press = press' := by
    intro press'
    rcases he with rfl | rfl
    · exact posts_canceled_iff press press'
    · exact posts_invoked_iff press _ press'
  have hnot : ∀ press' timer', e ≠ .setup press' timer' := by
    rintro press' timer' rfl
    rcases he with he | he <;> cases he
  have hmem : ∀ {press' timer'}, .setup press' timer' ∈ trace ++ [e] →
      .setup press' timer' ∈ trace := by
    intro press' timer' hmem
    rcases List.mem_append.mp hmem with hmem | hmem
    · exact hmem
    · exact absurd (List.mem_singleton.mp hmem).symm (hnot _ _)
  refine ⟨fun hset => ?_, fun hkept => ?_, fun e' he' press' hpress' => ?_, fun hinv => ?_, ?_⟩
  · obtain ⟨hlt, hle⟩ := h.setup (hmem hset)
    exact ⟨hlt.trans_le hlength, hle.trans hid⟩
  · rw [hpress'] at hkept
    cases hkept
  · rcases List.mem_append.mp he' with he' | he'
    · obtain ⟨timer, hset⟩ := h.posts e' he' press' hpress'
      exact ⟨timer, List.mem_append_left _ hset⟩
    · rw [List.mem_singleton.mp he', hposts] at hpress'
      exact ⟨_, List.mem_append_left _ (hpress' ▸ hsetup)⟩
  · refine List.mem_append_left _ ?_
    rcases List.mem_append.mp hinv with hinv | hinv
    · exact h.invoked hinv
    · rcases he with rfl | rfl
      · cases List.mem_singleton.mp hinv
      · cases List.mem_singleton.mp hinv
        exact hsetup
  · refine List.pairwise_append.mpr ⟨h.follows, List.pairwise_singleton _ _, ?_⟩
    intro e' he' e'' he''
    rw [List.mem_singleton.mp he'']
    refine ⟨fun press' hpress' hpost => ?_, fun press' timer' _ => hnot press' timer',
      fun _ he => absurd he (hnot _ _)⟩
    rw [hposts] at hpost
    exact hfree e' he' (hpost ▸ hpress')

/-- A step without a posting or a setup. -/
theorem Tracked.idle {b b' : Basic} {trace : List DelayedActionEvent} (h : Tracked b trace)
    (hpress : b'.delayedPress = none ∨ b'.delayedPress = b.delayedPress ∧
      b'.toDelayedAction.currentId = b.toDelayedAction.currentId)
    (hid : b.toDelayedAction.currentId ≤ b'.toDelayedAction.currentId)
    (hlength : b.objects.length ≤ b'.objects.length) : Tracked b' trace where
  setup hset := by
    obtain ⟨hlt, hle⟩ := h.setup hset
    exact ⟨hlt.trans_le hlength, hle.trans hid⟩
  kept hkept := by
    rcases hpress with hnone | ⟨hsame, hid'⟩
    · rw [hnone] at hkept
      cases hkept
    · rw [hid']
      exact h.kept (hsame ▸ hkept)
  posts := h.posts
  invoked := h.invoked
  follows := h.follows

/-- A cancellation, of the press that is kept if there is one. -/
theorem Tracked.cancel {b b' : Basic} {trace : List DelayedActionEvent} (h : Tracked b trace)
    (hpress' : b'.delayedPress = none)
    (hid : b.toDelayedAction.currentId ≤ b'.toDelayedAction.currentId)
    (hlength : b.objects.length ≤ b'.objects.length) :
    Tracked b' (trace ++ b.delayedPress.toList.map .canceled) := by
  cases hpress : b.delayedPress with
  | none =>
      rw [Option.toList_none, List.map_nil, List.append_nil]
      exact h.idle (Or.inl hpress') hid hlength
  | some press => exact h.post hpress hpress' hid hlength (Or.inl rfl)

/-- A setup for a new press under a new id. -/
theorem Tracked.setUp {b b' : Basic} {trace : List DelayedActionEvent} (h : Tracked b trace)
    (hpress : b'.delayedPress = some b.objects.length)
    (hid : b.toDelayedAction.currentId < b'.toDelayedAction.currentId)
    (hlength : b.objects.length < b'.objects.length) :
    Tracked b' (trace ++ [.setup b.objects.length b'.toDelayedAction.currentId]) := by
  have hnew : ∀ e ∈ trace, ¬ e.Posts b.objects.length := by
    intro e he hposts
    obtain ⟨timer, hset⟩ := h.posts e he _ hposts
    exact absurd (h.setup hset).1 (lt_irrefl _)
  refine ⟨fun hset => ?_, fun hkept => ?_, fun e he press hposts => ?_, fun hinv => ?_, ?_⟩
  · rcases List.mem_append.mp hset with hset | hset
    · obtain ⟨hlt, hle⟩ := h.setup hset
      exact ⟨hlt.trans hlength, hle.trans hid.le⟩
    · cases List.mem_singleton.mp hset
      exact ⟨hlength, le_refl _⟩
  · obtain rfl := Option.some.inj (hpress.symm.trans hkept)
    refine ⟨by simp, fun e he => ?_⟩
    rcases List.mem_append.mp he with he | he
    · exact hnew e he
    · rw [List.mem_singleton.mp he]
      exact not_posts_setup _ _ _
  · rcases List.mem_append.mp he with he | he
    · obtain ⟨timer, hset⟩ := h.posts e he press hposts
      exact ⟨timer, List.mem_append_left _ hset⟩
    · rw [List.mem_singleton.mp he] at hposts
      exact absurd hposts (not_posts_setup _ _ _)
  · refine List.mem_append_left _ ?_
    rcases List.mem_append.mp hinv with hinv | hinv
    · exact h.invoked hinv
    · cases List.mem_singleton.mp hinv
  · refine List.pairwise_append.mpr ⟨h.follows, List.pairwise_singleton _ _, ?_⟩
    intro e he e' he'
    rw [List.mem_singleton.mp he']
    refine ⟨fun press _ hposts => absurd hposts (not_posts_setup _ _ _),
      fun press timer hposts heq => ?_, ?_⟩
    · cases heq
      exact hnew e he hposts
    rintro press timer press' timer' rfl heq
    cases heq
    obtain ⟨hlt, hle⟩ := h.setup he
    exact ⟨hlt.ne, hle.trans_lt hid⟩

/-- A step of the trace. -/
theorem Tracked.step {b b' : Basic} {trace events : List DelayedActionEvent}
    (h : Tracked b trace) (hstep : Delays b b' events) : Tracked b' (trace ++ events) := by
  cases hstep with
  | idle press currentId length =>
      rw [List.append_nil]
      exact h.idle (Or.inr ⟨press, currentId⟩) currentId.ge length
  | cancels press currentId length => exact h.cancel press (by omega) length
  | setsUp press currentId length =>
      -- the cancellation in between lets the old press go
      let b₁ : Basic :=
        { b with toDelayedAction := { b.toDelayedAction with
            currentManipulatedOriginalEvent := none } }
      have hnone : b₁.delayedPress = none := by
        unfold delayedPress
        split <;> simp_all [b₁]
      have h₁ : Tracked b₁ (trace ++ b.delayedPress.toList.map .canceled) :=
        h.cancel hnone (le_refl _) (le_refl _)
      have hid : b₁.toDelayedAction.currentId < b'.toDelayedAction.currentId := by
        show b.toDelayedAction.currentId < _
        omega
      rw [← List.append_assoc]
      exact h₁.setUp press hid length
  | invokes posted press' currentId length =>
      exact h.post posted press' currentId.ge length (Or.inr rfl)

end Traces

/-- In every run the history tells what is set up and what has been posted. -/
theorem tracked_run (definition : BasicDefinition) (output : Output) (is : List Input) :
    Tracked (Machine.run step (.initial definition output) is).basic
      (delayedActionTrace definition output is) := by
  induction is using List.reverseRecOn with
  | nil =>
      exact ⟨fun h => (by cases h), fun h => (by cases h), fun _ h => (by cases h),
        fun h => (by cases h), List.Pairwise.nil⟩
  | append_singleton is i ih =>
      rw [Machine.run_concat, delayedActionTrace, Machine.outputs_concat]
      exact ih.step (delays_step _ i)

/-- Only a manipulator with a `to_delayed_action` has anything in its trace. -/
theorem isSome_of_mem_trace {definition : BasicDefinition} {output : Output} {is : List Input}
    {e : DelayedActionEvent} (he : e ∈ delayedActionTrace definition output is) :
    definition.toDelayedAction.isSome = true := by
  induction is using List.reverseRecOn with
  | nil => cases he
  | append_singleton is i ih =>
      rw [delayedActionTrace, Machine.outputs_concat] at he
      rcases List.mem_append.mp he with he | he
      · exact ih he
      · let s := Machine.run step (.initial definition output) is
        have hdefinition : s.basic.definition = definition := (run_spec definition output is).1
        rw [← hdefinition]
        cases haction : s.basic.definition.toDelayedAction with
        | none =>
            have hnil : delayedActionEvents s i = [] := by simp [delayedActionEvents, haction]
            exact absurd (hnil ▸ he) List.not_mem_nil
        | some action => rfl

/-! ### A key_down rules out the invocation -/

omit [Exprtk] [SystemClock] [MachTimebase] in
/-- Nothing is posted any more for a press that exists and is not kept. -/
theorem Delays.done {b b' : Basic} {events : List DelayedActionEvent} (h : Delays b b' events)
    {press : ℕ} (hlt : press < b.objects.length) (hpress : b.delayedPress ≠ some press) :
    press < b'.objects.length ∧ b'.delayedPress ≠ some press ∧ ∀ e ∈ events, ¬ e.Posts press := by
  have hcanceled : ∀ e ∈ b.delayedPress.toList.map DelayedActionEvent.canceled,
      ¬ e.Posts press := by
    intro e he hposts
    obtain ⟨press', hmem, rfl⟩ := List.mem_map.mp he
    rw [posts_canceled_iff] at hposts
    exact hpress ((Option.mem_toList.mp hmem).trans (congrArg some hposts))
  cases h with
  | idle press' currentId length =>
      exact ⟨hlt.trans_le length, press' ▸ hpress, by simp⟩
  | cancels press' currentId length =>
      exact ⟨hlt.trans_le length, by simp [press'], hcanceled⟩
  | setsUp press' currentId length =>
      refine ⟨hlt.trans length, ?_, fun e he => ?_⟩
      · rw [press', Ne, Option.some.injEq]
        exact hlt.ne'
      · rcases List.mem_append.mp he with he | he
        · exact hcanceled e he
        · rw [List.mem_singleton.mp he]
          exact not_posts_setup _ _ _
  | @invokes press'' posted press' currentId length =>
      refine ⟨hlt.trans_le length, by simp [press'], fun e he hposts => ?_⟩
      rw [List.mem_singleton.mp he, posts_invoked_iff] at hposts
      exact hpress (posted.trans (congrArg some hposts))

omit [Exprtk] [SystemClock] [MachTimebase] in
/-- No press is ever removed. -/
theorem Delays.length_le {b b' : Basic} {events : List DelayedActionEvent}
    (h : Delays b b' events) : b.objects.length ≤ b'.objects.length := by
  cases h with
  | idle press currentId length => exact length
  | cancels press currentId length => exact length
  | setsUp press currentId length => exact length.le
  | invokes posted press' currentId length => exact length

/-- An entry does not invoke. -/
theorem not_invoked_of_manipulate (s : State) (front : Entry) (rest : List Entry)
    (now : AbsoluteTime) (press timer : ℕ) :
    .invoked press timer ∉ delayedActionEvents s (.manipulate front rest now) := by
  intro hinvoked
  unfold delayedActionEvents at hinvoked
  cases haction : s.basic.definition.toDelayedAction with
  | none => simp [haction] at hinvoked
  | some action =>
      simp only [haction] at hinvoked
      split_ifs at hinvoked
      · simp at hinvoked
      · simp at hinvoked
      · cases hinvoked

/-- Nothing is posted for it on the rest of the run. -/
theorem outputs_done {s : State} {press : ℕ} (hlt : press < s.basic.objects.length)
    (hpress : s.basic.delayedPress ≠ some press) (is : List Input) :
    ∀ e ∈ Machine.outputs (fun s i => (step s i, delayedActionEvents s i)) s is,
      ¬ e.Posts press := by
  induction is generalizing s with
  | nil => simp
  | cons i is ih =>
      obtain ⟨hlt', hpress', hevents⟩ := (delays_step s i).done hlt hpress
      intro e he
      rcases List.mem_append.mp he with he | he
      · exact hevents e he
      · exact ih hlt' hpress' e he

/-- After a key_down the press that was kept is let go. -/
theorem delayedPress_manipulate_ne {s : State} {front : Entry} (rest : List Entry)
    (now : AbsoluteTime) (action : s.basic.definition.toDelayedAction.isSome)
    (down : front.eventType = .keyDown) {press : ℕ} (hlt : press < s.basic.objects.length) :
    (step s (.manipulate front rest now)).basic.delayedPress ≠ some press := by
  obtain ⟨-, hnone, -, hlength⟩ := observe_keyDown action down s.output
  show (s.basic.manipulate front rest s.output now).basic.delayedPress ≠ _
  rcases s.basic.manipulate_keyDown_cases down rest s.output now with
    ⟨hbasic, -⟩ | ⟨front', fromEvents, modifiers, output', hdown', hcapture⟩
  · rw [hbasic, hnone]
    simp
  · rw [hcapture]
    obtain ⟨-, -, ⟨-, hpress', -⟩ | ⟨-, hpress', -⟩⟩ :=
      (s.basic.observe front s.output).1.capture_delayed hdown' fromEvents modifiers output'
    · rw [hpress', hlength, Ne, Option.some.injEq]
      exact hlt.ne'
    · rw [hpress', hnone]
      simp

/-! ### Balanced postings -/

omit [Exprtk] [SystemClock] [MachTimebase] in
/-- Every event and every modifier key is in the entries as often as a key_down as it is as a
key_up, and the sticky modifiers in place of `caps_lock` cancel. -/
structure BalancedEntries (entries : List Entry) : Prop where
  events (event : Event) :
    entries.countP (fun e => e.event = event && e.eventType = .keyDown) =
      entries.countP fun e => e.event = event && e.eventType = .keyUp
  modifiers (flag : ModifierFlag) :
    entries.countP (fun e =>
        ManipulatedOriginalEvent.isKeyOf flag e.event && e.eventType = .keyDown) =
      entries.countP fun e =>
        ManipulatedOriginalEvent.isKeyOf flag e.event && e.eventType = .keyUp
  capsLock :
    entries.countP (fun e => e.event = .stickyModifier .capsLock .on && e.eventType = .single) =
      entries.countP fun e =>
        e.event = .stickyModifier .capsLock .off && e.eventType = .single

omit [Exprtk] [SystemClock] [MachTimebase] in
/-- Entries are balanced if every charge cancels out. -/
theorem balancedEntries_of_charge {entries : List Entry}
    (h : ∀ c : Charge, (entries.map fun e => c.charge e.event e.eventType).sum = 0) :
    BalancedEntries entries := by
  have hevents (p : Event → Bool) :
      entries.countP (fun e => p e.event && e.eventType = .keyDown) =
        entries.countP fun e => p e.event && e.eventType = .keyUp := by
    have hp := h (.ofEvents p)
    rw [Charge.sum_ofEvents] at hp
    omega
  refine ⟨fun event => hevents (· = event), fun flag => hevents _, ?_⟩
  have hcapsLock := h .ofCapsLock
  rw [Charge.sum_ofCapsLock] at hcapsLock
  omega

/-- `post_events` appends a balanced batch. -/
theorem balanced_postDelayedEvents (b : Basic) (events : List ToEventDefinition)
    (output : Output) :
    ∃ new, (b.postDelayedEvents events output).2.queue.events = output.queue.events ++ new ∧
      BalancedEntries new := by
  have hnil : BalancedEntries [] := balancedEntries_of_charge fun _ => rfl
  unfold postDelayedEvents
  dsimp only
  split
  · rename_i front id _ _
    unfold send
    cases hm : b.objects[id]? with
    | none => exact ⟨[], by simp, hnil⟩
    | some m =>
        let s : EventSender := { current := m, output := output }
        have hposts := BasicDefinition.posts_postDelayedAction front events s
        have hsends : EventSender.Sends front (fun _ => True) (fun _ => True) s
            (BasicDefinition.postDelayedAction front events s) :=
          BasicDefinition.sends_postDelayedAction (fun _ _ => trivial)
            (fun _ _ => ⟨trivial, fun _ _ => trivial⟩) s
        obtain ⟨new, hbatch, -⟩ := hsends.exists_batch
        refine ⟨new.map output.queue.delay, hbatch.events, balancedEntries_of_charge fun c => ?_⟩
        have hbalance := hposts.balance c
        simp only [Charge.balance, hbatch.posted, hposts.deferred, List.map_append,
          List.sum_append, ManipulatedOriginalEvent.owedModifiers, hposts.released,
          hposts.fromMandatoryModifiers, Pi.zero_apply] at hbalance
        rw [List.map_map]
        show (new.map fun e => c.charge e.event e.eventType).sum = 0
        linarith
  · exact ⟨[], by simp, hnil⟩

/-! ### What the postings append -/

/-- The list that an event of the trace posts. -/
def DelayedActionEvent.toEvents (action : ToDelayedAction) :
    DelayedActionEvent → List ToEventDefinition
  | .setup _ _ => []
  | .canceled _ => action.toIfCanceled
  | .invoked _ _ => action.toIfInvoked

omit [Exprtk] [SystemClock] [MachTimebase] in
/-- The press of a posting is the one that was kept. -/
theorem Delays.delayedPress_eq {b b' : Basic} {events : List DelayedActionEvent}
    (h : Delays b b' events) {e : DelayedActionEvent} (he : e ∈ events) {press : ℕ}
    (hposts : e.Posts press) : b.delayedPress = some press := by
  have hcanceled : ∀ e ∈ b.delayedPress.toList.map DelayedActionEvent.canceled,
      e.Posts press → b.delayedPress = some press := by
    intro e he hposts
    obtain ⟨press', hmem, rfl⟩ := List.mem_map.mp he
    rw [posts_canceled_iff] at hposts
    exact (Option.mem_toList.mp hmem).trans (congrArg some hposts)
  cases h with
  | idle => cases he
  | cancels => exact hcanceled e he hposts
  | setsUp =>
      rcases List.mem_append.mp he with he | he
      · exact hcanceled e he hposts
      · rw [List.mem_singleton.mp he] at hposts
        exact absurd hposts (not_posts_setup _ _ _)
  | invokes posted =>
      rw [List.mem_singleton.mp he, posts_invoked_iff] at hposts
      exact posted.trans (congrArg some hposts)

/-- `post_events` posts the events for the press that is kept. -/
theorem postDelayedEvents_eq {b : Basic} {press : ℕ} (hpress : b.delayedPress = some press)
    (hlt : press < b.objects.length) (events : List ToEventDefinition) (output : Output) :
    ∃ front m, (b.postDelayedEvents events output).2 =
      (BasicDefinition.postDelayedAction front events
        { current := m, output := output }).output := by
  unfold delayedPress at hpress
  split at hpress
  · rename_i front id hfront hcurrent
    obtain rfl := Option.some.inj hpress
    obtain ⟨m, hm⟩ : ∃ m, b.objects[id]? = some m := ⟨_, List.getElem?_eq_getElem hlt⟩
    refine ⟨front, m, ?_⟩
    unfold postDelayedEvents send
    simp only [hfront, hcurrent, hm]
  · cases hpress

/-- The postings of a step all come from one call of `post_events`, of a manipulator that keeps the
same press; a step without such a call leaves the output queue alone. -/
theorem delayedActionOutput_cases (s : State) (i : Input) :
    (∃ (action : ToDelayedAction) (b : Basic) (events : List ToEventDefinition),
        s.basic.definition.toDelayedAction = some action ∧
        b.delayedPress = s.basic.delayedPress ∧ b.objects.length = s.basic.objects.length ∧
        delayedActionOutput s i = (b.postDelayedEvents events s.output).2 ∧
        (∀ press, s.basic.delayedPress = some press →
          ∃ e ∈ delayedActionEvents s i, e.Posts press) ∧
        ∀ e ∈ delayedActionEvents s i, ∀ press, e.Posts press → e.toEvents action = events) ∨
      (∀ e ∈ delayedActionEvents s i, ∀ press, ¬ e.Posts press) ∧
        delayedActionOutput s i = s.output := by
  cases haction : s.basic.definition.toDelayedAction with
  | none =>
      refine Or.inr ⟨by simp [delayedActionEvents, haction], ?_⟩
      cases i with
      | manipulate front rest now => exact (observe_other (Or.inl haction) s.output).2
      | fireDelayedAction timer =>
          rcases s.basic.fireDelayedAction_cases timer s.output with
            ⟨action, h, -⟩ | ⟨-, -, hout⟩
          · rw [haction] at h
            cases h
          · exact hout
      | _ => rfl
  | some action =>
      cases i with
      | manipulate front rest now =>
          by_cases hdown : front.eventType = .keyDown
          · obtain ⟨b₁, hsame, heq⟩ := observe_keyDown_eq haction hdown s.output
            let b₂ : Basic :=
              { b₁ with toDelayedAction.currentId := b₁.toDelayedAction.currentId + 1 }
            refine Or.inl ⟨action, b₂, action.toIfCanceled, rfl, hsame.press, hsame.length,
              congrArg Prod.snd heq, fun press hpress => ?_, fun e he press hposts => ?_⟩
            · refine ⟨.canceled press, ?_, (posts_canceled_iff _ _).mpr rfl⟩
              simp [delayedActionEvents, haction, hdown, hpress]
            · simp only [delayedActionEvents, haction, hdown, if_true] at he
              rcases List.mem_append.mp he with he | he
              · obtain ⟨press', -, rfl⟩ := List.mem_map.mp he
                rfl
              · split_ifs at he
                · obtain ⟨press', -, rfl⟩ := List.mem_map.mp he
                  exact absurd hposts (not_posts_setup _ _ _)
                · cases he
          · refine Or.inr ⟨?_, (observe_other (Or.inr hdown) s.output).2⟩
            simp [delayedActionEvents, haction, hdown]
      | fireDelayedAction timer =>
          rcases s.basic.fireDelayedAction_cases timer s.output with
            ⟨action', h, hpending, hid, heq⟩ | ⟨hstale, -, hout⟩
          · obtain rfl : action = action' := Option.some.inj (haction.symm.trans h)
            have hevents : delayedActionEvents s (.fireDelayedAction timer) =
                s.basic.delayedPress.toList.map (.invoked · timer) := by
              simp [delayedActionEvents, haction, hpending, hid]
            let b₁ : Basic :=
              { s.basic with
                toDelayedAction.pending := s.basic.toDelayedAction.pending.erase timer }
            refine Or.inl ⟨action, b₁, action.toIfInvoked, rfl, rfl, rfl, congrArg Prod.snd heq,
              fun press hpress => ?_, fun e he press _ => ?_⟩
            · rw [hevents, hpress]
              exact ⟨.invoked press timer, by simp, (posts_invoked_iff _ _ _).mpr rfl⟩
            · rw [hevents] at he
              obtain ⟨press', -, rfl⟩ := List.mem_map.mp he
              rfl
          · refine Or.inr ⟨?_, hout⟩
            rw [delayedActionEvents_of_stale hstale]
            simp
      | _ => exact Or.inr ⟨by simp [delayedActionEvents, haction], rfl⟩

/-- **A delayed action is invoked or canceled, never both.**  Along every run of a manipulator each
setup is for a press of its own, and at most one posting follows on its behalf; the callback of an
older setup posts nothing; once the manipulator has seen a key_down, the setups before it are not
invoked any more; and in every step the posting, of the list that belongs to it, appends balanced
entries, while a step without one leaves the output queue alone. -/
theorem run_delayedAction (definition : BasicDefinition) (output : Output) (is : List Input) :
    let s := Machine.run step (.initial definition output) is
    let trace := delayedActionTrace definition output is
    (trace.Pairwise fun e e' => ∀ press, e.Posts press → ¬ e'.Posts press) ∧
      (trace.Pairwise fun e e' => ∀ press timer press' timer', e = .setup press timer →
        e' = .setup press' timer' → press ≠ press') ∧
      (∀ before e after, trace = before ++ e :: after → ∀ press, e.Posts press →
        ∃ timer, .setup press timer ∈ before ∧
          ∀ timer', e = .invoked press timer' → timer' = timer) ∧
      (∀ before press timer after press' timer', trace = before ++ .setup press timer :: after →
        .setup press' timer' ∈ after → (s.basic.fireDelayedAction timer s.output).2 = s.output) ∧
      (∀ before front rest now after, is = before ++ .manipulate front rest now :: after →
        front.eventType = .keyDown → ∀ press timer timer',
          .setup press timer ∈ delayedActionTrace definition output before →
          .invoked press timer' ∈ trace →
          .invoked press timer' ∈ delayedActionTrace definition output before) ∧
      ∀ i,
        (∀ e ∈ delayedActionEvents s i, ∀ press, e.Posts press → ∃ action front m,
          definition.toDelayedAction = some action ∧
          delayedActionOutput s i = (BasicDefinition.postDelayedAction front (e.toEvents action)
            { current := m, output := s.output }).output) ∧
        ((∀ e ∈ delayedActionEvents s i, ∀ press, ¬ e.Posts press) →
          delayedActionOutput s i = s.output) ∧
        ∃ new, (delayedActionOutput s i).queue.events = s.output.queue.events ++ new ∧
          BalancedEntries new := by
  intro s trace
  have htracked : Tracked s.basic trace := tracked_run definition output is
  have hdefinition : s.basic.definition = definition := (run_spec definition output is).1
  refine ⟨htracked.follows.imp fun h => h.once, htracked.follows.imp fun h press timer press' timer'
    he he' => (h.setups he he').1, ?_, ?_, ?_, fun i => ⟨?_, ?_, ?_⟩⟩
  · intro before e after htrace press hposts
    have hmem : e ∈ trace := htrace ▸ by simp
    have hbefore : ∀ {timer}, .setup press timer ∈ trace → .setup press timer ∈ before := by
      intro timer hset
      have hfollows := htrace ▸ htracked.follows
      have hafter := (List.pairwise_cons.mp (List.pairwise_append.mp hfollows).2.1).1
      rw [htrace] at hset
      rcases List.mem_append.mp hset with hset | hset
      · exact hset
      · rcases List.mem_cons.mp hset with heq | hset
        · exact absurd (heq ▸ hposts) (not_posts_setup _ _ _)
        · exact absurd rfl ((hafter _ hset).ordered press timer hposts)
    rcases hposts with rfl | ⟨timer, rfl⟩
    · obtain ⟨timer, hset⟩ := htracked.posts _ hmem press (Or.inl rfl)
      exact ⟨timer, hbefore hset, fun timer' h => by cases h⟩
    · refine ⟨timer, hbefore (htracked.invoked hmem), fun timer' h => ?_⟩
      cases h
      rfl
  · intro before press timer after press' timer' htrace hset'
    have hfollows := htrace ▸ htracked.follows
    have hafter := (List.pairwise_cons.mp (List.pairwise_append.mp hfollows).2.1).1
    have hlt := ((hafter _ hset').setups rfl rfl).2
    have hmem : .setup press' timer' ∈ trace := by
      rw [htrace]
      exact List.mem_append_right _ (List.mem_cons_of_mem _ hset')
    have hle := (htracked.setup hmem).2
    rcases s.basic.fireDelayedAction_cases timer s.output with ⟨_, -, -, hid, -⟩ | ⟨-, -, hout⟩
    · omega
    · exact hout
  · rintro before front rest now after rfl hdown press timer timer' hset hinvoked
    let t := Machine.run step (.initial definition output) before
    have hbefore : Tracked t.basic (delayedActionTrace definition output before) :=
      tracked_run definition output before
    have hlt : press < t.basic.objects.length := (hbefore.setup hset).1
    have haction : t.basic.definition.toDelayedAction.isSome = true := by
      rw [show t.basic.definition = definition from (run_spec definition output before).1]
      exact isSome_of_mem_trace hset
    rw [show trace = _ from Machine.outputs_append _ _ _ _] at hinvoked
    rcases List.mem_append.mp hinvoked with hinvoked | hinvoked
    · exact hinvoked
    · have hnext := delayedPress_manipulate_ne rest now haction hdown hlt
      have hlt' := hlt.trans_le (delays_step t (.manipulate front rest now)).length_le
      rcases List.mem_append.mp hinvoked with hinvoked | hinvoked
      · exact absurd hinvoked (not_invoked_of_manipulate t front rest now press timer')
      · exact absurd ((posts_invoked_iff press timer' press).mpr rfl)
          (outputs_done hlt' hnext after _ hinvoked)
  · intro e he press hposts
    have hpress := (delays_step s i).delayedPress_eq he hposts
    rcases delayedActionOutput_cases s i with
      ⟨action, b, events, haction, hsame, hlength, hout, -, hevents⟩ | ⟨hnone, -⟩
    · obtain ⟨hset, -⟩ := htracked.kept hpress
      obtain ⟨front, m, heq⟩ := postDelayedEvents_eq (hsame.trans hpress)
        (hlength ▸ (htracked.setup hset).1) events s.output
      refine ⟨action, front, m, hdefinition ▸ haction, ?_⟩
      rw [hout, heq, hevents e he press hposts]
    · exact absurd hposts (hnone e he press)
  · intro hnone
    rcases delayedActionOutput_cases s i with
      ⟨action, b, events, haction, hsame, hlength, hout, hposts, -⟩ | ⟨-, hout⟩
    · rw [hout]
      refine postDelayedEvents_of_delayedPress_eq_none (hsame.trans ?_) events s.output
      cases hpress : s.basic.delayedPress with
      | none => rfl
      | some press =>
          obtain ⟨e, he, hpost⟩ := hposts press hpress
          exact absurd hpost (hnone e he press)
    · exact hout
  · rcases delayedActionOutput_cases s i with
      ⟨action, b, events, haction, hsame, hlength, hout, -⟩ | ⟨-, hout⟩
    · rw [hout]
      exact b.balanced_postDelayedEvents events s.output
    · rw [hout]
      exact ⟨[], by simp, balancedEntries_of_charge fun _ => rfl⟩

end Basic

end Karabiner

namespace Karabiner.Basic

/-- A manipulator that is to turn `caps_lock` on by a sticky modifier once nothing else is pressed.
-/
def delayedCapsLock : BasicDefinition :=
  { mapped (.momentarySwitchEvent ⟨⟨UsagePage.keyboardOrKeypad, 5⟩⟩) with
    toDelayedAction := some
      { toIfInvoked := [{ eventDefinition := .stickyModifier .capsLock .on }] } }

/-- A sticky modifier of `caps_lock` is posted as a key_down and a key_up, and both are sticky-on
entries. -/
theorem not_balanced_delayedAction :
    ∃ (_ : Exprtk) (_ : SystemClock) (_ : MachTimebase),
      ¬ ∀ (definition : BasicDefinition) (output : Output) (is : List Input) (i : Input),
        let s := Machine.run step (.initial definition output) is
        ∀ new, (delayedActionOutput s i).queue.events = s.output.queue.events ++ new →
          (new.countP fun e => e.event = .stickyModifier .capsLock .on) =
            new.countP fun e => e.event = .stickyModifier .capsLock .off := by
  refine ⟨.singleVariable, ⟨fun _ => 0⟩, ⟨1, 1⟩, fun h => ?_⟩
  let _ : Exprtk := .singleVariable
  let _ : SystemClock := ⟨fun _ => 0⟩
  let _ : MachTimebase := ⟨1, 1⟩
  let s := Machine.run step (.initial delayedCapsLock ⟨{}, World.initial⟩)
    [.manipulate (typed .keyDown) [] 0]
  have hcount := h delayedCapsLock ⟨{}, World.initial⟩ [.manipulate (typed .keyDown) [] 0]
    (.fireDelayedAction 2)
    ((delayedActionOutput s (.fireDelayedAction 2)).queue.events.drop 1)
    (by decide)
  revert hcount
  decide

end Karabiner.Basic
