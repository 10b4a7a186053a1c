import Mathlib.Data.List.Basic

/-!
# Switching on and off

`Toggles on off b l` says that the list `l` consists of `on` and `off` in turn, beginning with `on`,
and that `b` is whether the last of them is `on`.

* `Toggles.change` — the rule for a step that appends what has changed, if anything.
-/

/-- `on` and `off` take turns, and the flag is whether the last one is `on`. -/
inductive Toggles {α : Type*} (on off : α) : Bool → List α → Prop
  | nil : Toggles on off false []
  | on {l : List α} : Toggles on off false l → Toggles on off true (l ++ [on])
  | off {l : List α} : Toggles on off true l → Toggles on off false (l ++ [off])

namespace Toggles

variable {α : Type*} {on off : α}

/-- What is appended when the flag changes. -/
def changes (on off : α) : Bool → Bool → List α
  | false, true => [on]
  | true, false => [off]
  | false, false => []
  | true, true => []

/-- **Appending what has changed.** -/
theorem change {b : Bool} {l : List α} (h : Toggles on off b l) (c : Bool) :
    Toggles on off c (l ++ changes on off b c) := by
  cases b with
  | false =>
      cases c with
      | false => rwa [changes, List.append_nil]
      | true => exact h.on
  | true =>
      cases c with
      | false => exact h.off
      | true => rwa [changes, List.append_nil]

end Toggles
