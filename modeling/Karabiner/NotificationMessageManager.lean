import Karabiner.EventQueue.Event.PayloadJson
import Karabiner.Library.Machine
import Karabiner.Library.OrderedMap
import Karabiner.ModifierFlagManager

/-!
# The notification message manager

`share/notification_message_manager.hpp`: messages about devices, about sticky modifiers and of the
user, and the one body they are joined into.  A call puts its jobs into the dispatcher at once, so
a call is one step; the body is that of the file as it was last saved.

* `body_eq_makeMessage` — what is saved is what the messages give.
* `body_after_clear_iff` — when **clearing the sticky modifiers** leaves nothing of them.
-/

namespace Karabiner

/-- `notification_message_manager`. -/
structure NotificationMessageManager where
  deviceUngrabbableTemporarilyMessages : OrderedMap DeviceId String := {}
  messages : OrderedMap String String := {}
  previousMessage : String := ""
  body : String := ""

namespace NotificationMessageManager

/-- A message goes into the stream on a line of its own. -/
def appendMessage (stream text : String) : String :=
  if text = "" then stream else if stream = "" then text else stream ++ "\n" ++ text

/-- The first loop of `make_message`. -/
def deviceMessage (m : NotificationMessageManager) : String :=
  match m.deviceUngrabbableTemporarilyMessages.entries.find? fun e => e.2 ≠ "" with
  | some e => appendMessage "" e.2
  | none => ""

/-- The second loop of `make_message`. -/
def appendMessages (stream : String) (entries : List (String × String)) : String :=
  entries.foldl (fun stream e => appendMessage stream e.2) stream

/-- `make_message`. -/
def makeMessage (m : NotificationMessageManager) : String :=
  appendMessages m.deviceMessage m.messages.entries

/-- `save_message_if_needed`. -/
def saveMessageIfNeeded (m : NotificationMessageManager) : NotificationMessageManager :=
  let message := m.makeMessage
  if m.previousMessage ≠ message then { m with previousMessage := message, body := message } else m

/-- The flags whose sticky state is shown. -/
def stickyModifierFlags : List ModifierFlag :=
  [.leftControl, .leftShift, .leftOption, .leftCommand, .rightControl, .rightShift, .rightOption,
    .rightCommand, .fn]

/-- The key of the message about a flag. -/
def stickyId (name : String) : String := "__system__sticky_" ++ name

/-- The messages of `async_update_sticky_modifiers_message`, with their keys. -/
def stickyMessages (modifierFlagManager : ModifierFlagManager) : List (String × String) :=
  stickyModifierFlags.filterMap fun f =>
    (getModifierFlagName f).map fun name =>
      (stickyId name, if modifierFlagManager.isStickyActive f then "sticky " ++ name else "")

/-- The public functions. -/
inductive Input
  | setDeviceUngrabbableTemporarilyMessage (id : DeviceId) (message : String)
  | eraseDevice (id : DeviceId)
  | updateStickyModifiersMessage (modifierFlagManager : ModifierFlagManager)
  | clearStickyModifiersMessage
  | setNotificationMessage (notificationMessage : NotificationMessage)

/-- The manager of a sticky update. -/
def Input.stickyUpdate : Input → Option ModifierFlagManager
  | .updateStickyModifiersMessage modifierFlagManager => some modifierFlagManager
  | _ => none

/-- The change of the messages by a call. -/
def change (m : NotificationMessageManager) : Input → NotificationMessageManager
  | .setDeviceUngrabbableTemporarilyMessage id message =>
    { m with
      deviceUngrabbableTemporarilyMessages :=
        m.deviceUngrabbableTemporarilyMessages.insert id message }
  | .eraseDevice id =>
    { m with
      deviceUngrabbableTemporarilyMessages := m.deviceUngrabbableTemporarilyMessages.erase id }
  | .updateStickyModifiersMessage modifierFlagManager =>
    { m with messages := m.messages.insertAll (stickyMessages modifierFlagManager) }
  | .clearStickyModifiersMessage =>
    { m with messages := m.messages.insert "__system__sticky_modifiers" "" }
  | .setNotificationMessage notificationMessage =>
    { m with
      messages := m.messages.insert ("__user__" ++ notificationMessage.id)
        notificationMessage.text }

/-- A call. -/
def step (m : NotificationMessageManager) (i : Input) : NotificationMessageManager :=
  (m.change i).saveMessageIfNeeded

/-- The manager after some calls. -/
def after (inputs : List Input) : NotificationMessageManager := Machine.run step {} inputs

/-! ### The body -/

/-- The body is that of the messages. -/
structure Saved (m : NotificationMessageManager) : Prop where
  previousMessage : m.previousMessage = m.makeMessage
  body : m.body = m.previousMessage

/-- Every call ends with the message being saved. -/
theorem saved_step {m : NotificationMessageManager} (h : m.Saved) (i : Input) :
    (m.step i).Saved := by
  have hbody : (m.change i).body = (m.change i).previousMessage := by
    cases i <;> exact h.body
  unfold step saveMessageIfNeeded
  dsimp only
  split_ifs with hchanged
  · exact ⟨rfl, rfl⟩
  · exact ⟨not_not.mp hchanged, hbody⟩

/-- After any history the body is that of the messages. -/
theorem saved_after (inputs : List Input) : (after inputs).Saved := by
  have hinitial : Saved {} := ⟨rfl, rfl⟩
  have hkeep (m : NotificationMessageManager) (i : Input) (h : m.Saved) : (m.step i).Saved :=
    saved_step h i
  exact Machine.run_invariant hkeep hinitial inputs

/-- **What is saved is what the messages give.** -/
theorem body_eq_makeMessage (inputs : List Input) :
    (after inputs).body = (after inputs).makeMessage :=
  (saved_after inputs).body.trans (saved_after inputs).previousMessage

/-! ### Leaving out messages -/

theorem appendMessage_empty (stream : String) : appendMessage stream "" = stream := if_pos rfl

/-- A stream that is longer stays longer. -/
theorem length_appendMessage_lt {stream stream' : String} (text : String)
    (h : stream.length < stream'.length) :
    (appendMessage stream text).length < (appendMessage stream' text).length := by
  have hstream' : stream' ≠ "" := by
    rintro rfl
    exact absurd h (Nat.not_lt_zero _)
  have hnewline : "\n".length = 1 := rfl
  unfold appendMessage
  rw [if_neg hstream']
  split_ifs
  · exact h
  · rw [String.length_append, String.length_append]
    omega
  · simp only [String.length_append]
    omega

/-- A message makes the stream longer. -/
theorem length_lt_appendMessage (stream : String) {text : String} (htext : text ≠ "") :
    stream.length < (appendMessage stream text).length := by
  have hpos : 0 < text.length := by
    rw [Nat.pos_iff_ne_zero]
    exact fun hlength => htext (String.length_eq_zero_iff.mp hlength)
  unfold appendMessage
  rw [if_neg htext]
  split_ifs with hstream
  · rwa [hstream]
  · simp only [String.length_append]
    omega

theorem appendMessages_cons (stream : String) (e : String × String)
    (entries : List (String × String)) :
    appendMessages stream (e :: entries) = appendMessages (appendMessage stream e.2) entries := rfl

theorem length_appendMessages_filter_lt (p : String → Bool) {stream stream' : String}
    (entries : List (String × String)) (h : stream.length < stream'.length) :
    (appendMessages stream (entries.filter fun e => p e.1)).length <
      (appendMessages stream' entries).length := by
  induction entries generalizing stream stream' with
  | nil => exact h
  | cons e entries ih =>
      have hlt := length_appendMessage_lt e.2 h
      rw [appendMessages_cons, List.filter_cons]
      cases p e.1 with
      | true => exact ih hlt
      | false =>
          refine ih (h.trans_le ?_)
          by_cases htext : e.2 = ""
          · rw [htext, appendMessage_empty]
          · exact (length_lt_appendMessage stream' htext).le

/-- **Messages can be left out** exactly when they are empty. -/
theorem appendMessages_filter_eq_iff (p : String → Bool) (stream : String)
    (entries : List (String × String)) :
    appendMessages stream entries = appendMessages stream (entries.filter fun e => p e.1) ↔
      ∀ e ∈ entries, p e.1 = false → e.2 = "" := by
  induction entries generalizing stream with
  | nil => simp [appendMessages]
  | cons e entries ih =>
      rw [List.forall_mem_cons, appendMessages_cons, List.filter_cons]
      cases p e.1 with
      | true =>
          refine (ih (appendMessage stream e.2)).trans ?_
          simp
      | false =>
          by_cases htext : e.2 = ""
          · rw [htext, appendMessage_empty]
            exact (ih stream).trans (by simp)
          · have hlt := length_appendMessages_filter_lt p entries
              (length_lt_appendMessage stream htext)
            constructor
            · intro heq
              exact absurd (congrArg String.length heq) hlt.ne'
            · rintro ⟨hempty, -⟩
              exact absurd (hempty rfl) htext

/-! ### Sticky messages -/

/-- The keys of the messages about flags. -/
def stickyIds : List String :=
  stickyModifierFlags.filterMap fun f => (getModifierFlagName f).map stickyId

/-- The messages that are not about flags. -/
def notSticky (id : String) : Bool := id ∉ stickyIds

/-- A message for each sticky flag, whether it is active or not. -/
theorem map_fst_stickyMessages (modifierFlagManager : ModifierFlagManager) :
    (stickyMessages modifierFlagManager).map Prod.fst = stickyIds := rfl

/-- No two flags share an id. -/
theorem stickyIds_nodup : stickyIds.Nodup := by decide

/-- The ids of the sticky messages are the sticky ids. -/
theorem fst_mem_stickyIds {modifierFlagManager : ModifierFlagManager} {e : String × String}
    (he : e ∈ stickyMessages modifierFlagManager) : e.1 ∈ stickyIds := by
  rw [← map_fst_stickyMessages modifierFlagManager]
  exact List.mem_map_of_mem he

/-- A message of the user is about no flag. -/
theorem notSticky_user (id : String) : notSticky ("__user__" ++ id) = true := by
  have hsystem : ∀ sticky ∈ stickyIds, sticky.toList[2]? = some 's' := by decide
  -- The keys differ in their third character.
  refine decide_eq_true fun hmem => ?_
  have huser := hsystem _ hmem
  rw [String.toList_append] at huser
  exact absurd huser (by simp)

/-- The messages about flags are empty. -/
def StickySilent (m : NotificationMessageManager) : Prop :=
  ∀ e ∈ m.messages.entries, notSticky e.1 = false → e.2 = ""

/-- The messages are empty if no flag is active. -/
theorem stickyMessages_silent_iff (modifierFlagManager : ModifierFlagManager) :
    (∀ e ∈ stickyMessages modifierFlagManager, e.2 = "") ↔
      ∀ f ∈ stickyModifierFlags, modifierFlagManager.isStickyActive f = false := by
  have hnamed : ∀ f ∈ stickyModifierFlags, (getModifierFlagName f).isSome := by decide
  constructor
  · intro hempty f hf
    obtain ⟨name, hname⟩ := Option.isSome_iff_exists.mp (hnamed f hf)
    have htext := hempty (stickyId name, _)
      (List.mem_filterMap.mpr ⟨f, hf, by rw [hname, Option.map_some]⟩)
    cases hactive : modifierFlagManager.isStickyActive f with
    | false => rfl
    | true =>
        rw [hactive, if_pos rfl] at htext
        exact absurd (congrArg String.length htext) (by simp)
  · intro hinactive e he
    obtain ⟨f, hf, he⟩ := List.mem_filterMap.mp he
    obtain ⟨name, -, rfl⟩ := Option.map_eq_some_iff.mp he
    exact if_neg (by simp [hinactive f hf])

/-- The last sticky update of a history. -/
def lastStickyUpdate (inputs : List Input) : Option ModifierFlagManager :=
  (inputs.filterMap Input.stickyUpdate).getLast?

@[simp] theorem messages_step (m : NotificationMessageManager) (i : Input) :
    (m.step i).messages = (m.change i).messages := by
  unfold step saveMessageIfNeeded
  dsimp only
  split_ifs <;> rfl

@[simp] theorem devices_step (m : NotificationMessageManager) (i : Input) :
    (m.step i).deviceUngrabbableTemporarilyMessages =
      (m.change i).deviceUngrabbableTemporarilyMessages := by
  unfold step saveMessageIfNeeded
  dsimp only
  split_ifs <;> rfl

/-- A call that is no sticky update assigns at most a message that is about no flag. -/
theorem change_messages {i : Input} (hi : i.stickyUpdate = none) (m : NotificationMessageManager) :
    (m.change i).messages = m.messages ∨
      ∃ id text, notSticky id = true ∧ (m.change i).messages = m.messages.insert id text := by
  cases i with
  | setDeviceUngrabbableTemporarilyMessage id message => exact .inl rfl
  | eraseDevice id => exact .inl rfl
  | updateStickyModifiersMessage modifierFlagManager => exact absurd hi (Option.some_ne_none _)
  | clearStickyModifiersMessage => exact .inr ⟨_, _, by decide, rfl⟩
  | setNotificationMessage notificationMessage => exact .inr ⟨_, _, notSticky_user _, rfl⟩

/-- Silence is about the messages with sticky ids. -/
theorem stickySilent_iff_restrict (m : NotificationMessageManager) :
    m.StickySilent ↔ ∀ e ∈ (m.messages.restrict fun id => !notSticky id).entries, e.2 = "" := by
  unfold StickySilent
  refine forall_congr' fun e => ?_
  rw [OrderedMap.mem_restrict, and_imp, Bool.not_eq_true']

/-- Other calls keep the messages about flags. -/
theorem stickySilent_step {i : Input} (hi : i.stickyUpdate = none)
    (m : NotificationMessageManager) : (m.step i).StickySilent ↔ m.StickySilent := by
  rw [stickySilent_iff_restrict, stickySilent_iff_restrict, messages_step]
  rcases change_messages hi m with hsame | ⟨id, text, hid, hinsert⟩
  · rw [hsame]
  · rw [hinsert, OrderedMap.restrict_insert_of_neg (by rw [hid]; rfl)]

/-- A sticky update sets them all. -/
theorem stickySilent_update (modifierFlagManager : ModifierFlagManager)
    (m : NotificationMessageManager) :
    (m.step (.updateStickyModifiersMessage modifierFlagManager)).StickySilent ↔
      ∀ f ∈ stickyModifierFlags, modifierFlagManager.isStickyActive f = false := by
  have hnodup : ((stickyMessages modifierFlagManager).map Prod.fst).Nodup := by
    rw [map_fst_stickyMessages]
    exact stickyIds_nodup
  have hmem {e : String × String} :
      e ∈ (m.messages.insertAll (stickyMessages modifierFlagManager)).entries ↔
        e ∈ stickyMessages modifierFlagManager ∨ e.1 ∉ stickyIds ∧ e ∈ m.messages.entries :=
    OrderedMap.mem_insertAll hnodup
  rw [← stickyMessages_silent_iff]
  unfold StickySilent
  rw [messages_step]
  constructor
  · intro h e he
    exact h e (hmem.mpr (.inl he)) (decide_eq_false (not_not.mpr (fst_mem_stickyIds he)))
  · intro h e he hsticky
    rcases hmem.mp he with he | ⟨hnot, -⟩
    · exact h e he
    · exact absurd hnot (of_decide_eq_false hsticky)

/-! ### Histories -/

/-- Only an update of the sticky modifiers is a sticky update. -/
theorem Input.eq_of_stickyUpdate_eq_some {i : Input} {modifierFlagManager : ModifierFlagManager}
    (hi : i.stickyUpdate = some modifierFlagManager) :
    i = .updateStickyModifiersMessage modifierFlagManager := by
  cases i with
  | updateStickyModifiersMessage other => exact congrArg _ (Option.some_inj.mp hi)
  | setDeviceUngrabbableTemporarilyMessage id message =>
      exact absurd hi (Option.some_ne_none _).symm
  | eraseDevice id => exact absurd hi (Option.some_ne_none _).symm
  | clearStickyModifiersMessage => exact absurd hi (Option.some_ne_none _).symm
  | setNotificationMessage notificationMessage => exact absurd hi (Option.some_ne_none _).symm

theorem after_concat (inputs : List Input) (i : Input) :
    after (inputs ++ [i]) = (after inputs).step i := Machine.run_concat _ _ _ _

theorem lastStickyUpdate_concat (inputs : List Input) (i : Input) :
    lastStickyUpdate (inputs ++ [i]) = i.stickyUpdate.or (lastStickyUpdate inputs) := by
  unfold lastStickyUpdate
  rw [List.filterMap_append]
  cases hi : i.stickyUpdate with
  | none => simp [hi]
  | some modifierFlagManager => simp [hi]

/-- The last sticky update decides whether there is a message about a flag. -/
theorem stickySilent_after_iff (inputs : List Input) :
    (after inputs).StickySilent ↔
      ∀ modifierFlagManager, lastStickyUpdate inputs = some modifierFlagManager →
        ∀ f ∈ stickyModifierFlags, modifierFlagManager.isStickyActive f = false := by
  induction inputs using List.reverseRecOn with
  | nil =>
      constructor
      · intro _ modifierFlagManager h
        exact absurd h (by simp [lastStickyUpdate])
      · intro _ e he
        exact absurd he List.not_mem_nil
  | append_singleton inputs i ih =>
      rw [after_concat, lastStickyUpdate_concat]
      cases hi : i.stickyUpdate with
      | none =>
          rw [stickySilent_step hi, Option.none_or]
          exact ih
      | some modifierFlagManager =>
          rw [Input.eq_of_stickyUpdate_eq_some hi, stickySilent_update, Option.some_or]
          simp

/-- A history without its sticky updates. -/
def withoutStickyUpdates (inputs : List Input) : List Input :=
  inputs.filter fun i => i.stickyUpdate.isNone

/-- The managers differ in the messages about flags, which the second does not have. -/
structure Unflagged (m m' : NotificationMessageManager) : Prop where
  messages : m'.messages = m.messages.restrict notSticky
  devices : m'.deviceUngrabbableTemporarilyMessages = m.deviceUngrabbableTemporarilyMessages

/-- A message with an id of its own goes to both. -/
theorem Unflagged.insert {m m' : NotificationMessageManager} (h : Unflagged m m') {id : String}
    (hid : notSticky id = true) (text : String) :
    m'.messages.insert id text = (m.messages.insert id text).restrict notSticky := by
  rw [h.messages, OrderedMap.restrict_insert_of_pos hid]

/-- A call that is no sticky update changes both alike. -/
theorem Unflagged.step {m m' : NotificationMessageManager} (h : Unflagged m m') {i : Input}
    (hi : i.stickyUpdate = none) : Unflagged (m.step i) (m'.step i) := by
  constructor
  · rw [messages_step, messages_step]
    cases i with
    | setDeviceUngrabbableTemporarilyMessage id message => exact h.messages
    | eraseDevice id => exact h.messages
    | updateStickyModifiersMessage modifierFlagManager =>
        exact absurd hi (Option.some_ne_none _)
    | clearStickyModifiersMessage => exact h.insert (by decide) ""
    | setNotificationMessage notificationMessage => exact h.insert (notSticky_user _) _
  · rw [devices_step, devices_step]
    unfold change
    cases i <;> simp only [h.devices]

theorem Unflagged.update {m m' : NotificationMessageManager} (h : Unflagged m m')
    (modifierFlagManager : ModifierFlagManager) :
    Unflagged (m.step (.updateStickyModifiersMessage modifierFlagManager)) m' where
  messages := by
    have hids : ∀ e ∈ stickyMessages modifierFlagManager, notSticky e.1 = false := by
      intro e he
      exact decide_eq_false (not_not.mpr (fst_mem_stickyIds he))
    rw [messages_step]
    exact h.messages.trans (OrderedMap.restrict_insertAll_of_neg hids _).symm
  devices := by
    rw [devices_step]
    exact h.devices

/-- **Leaving out the sticky updates** leaves out the messages about flags. -/
theorem unflagged_after (inputs : List Input) :
    Unflagged (after inputs) (after (withoutStickyUpdates inputs)) := by
  induction inputs using List.reverseRecOn with
  | nil => exact ⟨rfl, rfl⟩
  | append_singleton inputs i ih =>
      have hfilter : withoutStickyUpdates (inputs ++ [i]) =
          withoutStickyUpdates inputs ++ withoutStickyUpdates [i] := List.filter_append _ _
      cases hi : i.stickyUpdate with
      | none =>
          have hkept : withoutStickyUpdates [i] = [i] :=
            List.filter_cons_of_pos (Option.isNone_iff_eq_none.mpr hi)
          rw [hfilter, hkept, after_concat, after_concat]
          exact ih.step hi
      | some modifierFlagManager =>
          -- The update sets only messages about flags, which the other manager does not have.
          obtain rfl := Input.eq_of_stickyUpdate_eq_some hi
          have hleftOut : withoutStickyUpdates [.updateStickyModifiersMessage modifierFlagManager] =
              [] := rfl
          rw [hfilter, hleftOut, List.append_nil, after_concat]
          exact ih.update modifierFlagManager

/-- A manager without messages about flags joins the others to the same body exactly when those
about flags are empty. -/
theorem Unflagged.makeMessage_eq_iff {m m' : NotificationMessageManager} (h : Unflagged m m') :
    m.makeMessage = m'.makeMessage ↔ m.StickySilent := by
  have hdevice : m'.deviceMessage = m.deviceMessage := by
    unfold deviceMessage
    rw [h.devices]
  unfold makeMessage
  rw [hdevice, h.messages]
  exact appendMessages_filter_eq_iff notSticky _ _

/-- **Clearing the sticky modifiers.**  After the call, and until the next sticky update, the body
is the one without any sticky update exactly when the last sticky update found no flag active, since
the call empties a message that no sticky update sets. -/
theorem body_after_clear_iff (before rest : List Input)
    (hrest : ∀ i ∈ rest, i.stickyUpdate = none) :
    (after (before ++ .clearStickyModifiersMessage :: rest)).body =
        (after (withoutStickyUpdates (before ++ .clearStickyModifiersMessage :: rest))).body ↔
      ∀ modifierFlagManager, lastStickyUpdate before = some modifierFlagManager →
        ∀ f ∈ stickyModifierFlags, modifierFlagManager.isStickyActive f = false := by
  have hlast : lastStickyUpdate (before ++ .clearStickyModifiersMessage :: rest) =
      lastStickyUpdate before := by
    unfold lastStickyUpdate
    rw [List.filterMap_append, List.filterMap_cons_none rfl,
      List.filterMap_eq_nil_iff.mpr hrest, List.append_nil]
  rw [body_eq_makeMessage, body_eq_makeMessage, (unflagged_after _).makeMessage_eq_iff,
    stickySilent_after_iff, hlast]

/-- The left shift key is sticky. -/
def leftShiftSticky : ModifierFlagManager := ⟨[.make .increaseSticky .leftShift 0]⟩

/-- The text of a sticky modifier is there after it has been cleared. -/
theorem body_after_clear_leftShift :
    ¬ ∀ before rest : List Input, (∀ i ∈ rest, i.stickyUpdate = none) →
      (after (before ++ .clearStickyModifiersMessage :: rest)).body =
        (after (withoutStickyUpdates (before ++ .clearStickyModifiersMessage :: rest))).body := by
  intro h
  have hbody := h [.updateStickyModifiersMessage leftShiftSticky] [] (by simp)
  exact absurd hbody (by decide +kernel)

/-- It is not there when no modifier is sticky any more, and the message that is set afterwards is
the whole body. -/
theorem body_after_clear_iff_reset :
    let before : List Input :=
      [.updateStickyModifiersMessage leftShiftSticky, .updateStickyModifiersMessage ⟨[]⟩]
    let rest : List Input := [.setNotificationMessage ⟨"mode", "normal"⟩]
    (after (before ++ .clearStickyModifiersMessage :: rest)).body = "normal" ∧
      (after (before ++ .clearStickyModifiersMessage :: rest)).body =
        (after (withoutStickyUpdates (before ++ .clearStickyModifiersMessage :: rest))).body := by
  intro before rest
  exact ⟨by decide +kernel,
    (body_after_clear_iff before rest (by decide +kernel)).mpr (by decide +kernel)⟩

end NotificationMessageManager

end Karabiner
