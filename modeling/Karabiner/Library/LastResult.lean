import Karabiner.Library.Machine

/-!
# A cache of the last result

A function that keeps its last result together with the key it was computed for, and computes again
for another key.

* `LastResult.outputs_lookup` — **the cache is transparent**: any calls return what the function
  returns.
-/

namespace LastResult

variable {κ β : Type*} [DecidableEq κ] (f : κ → β)

/-- One call, with the cache that it leaves. -/
def lookup (cached : Option (κ × β)) (key : κ) : Option (κ × β) × β :=
  match cached with
  | some (last, result) =>
    if last = key then (cached, result) else (some (key, f key), f key)
  | none => (some (key, f key), f key)

omit [DecidableEq κ] in
/-- What is kept is a result of the function. -/
def Valid (cached : Option (κ × β)) : Prop := ∀ p ∈ cached, p.2 = f p.1

variable {f}

omit [DecidableEq κ] in
theorem valid_none : Valid f none := by simp [Valid]

omit [DecidableEq κ] in
theorem valid_some (key : κ) : Valid f (some (key, f key)) := by simp [Valid]

theorem Valid.lookup {cached : Option (κ × β)} (h : Valid f cached) (key : κ) :
    Valid f (LastResult.lookup f cached key).1 ∧ (LastResult.lookup f cached key).2 = f key := by
  cases cached with
  | none => exact ⟨valid_some key, rfl⟩
  | some p =>
      obtain ⟨last, result⟩ := p
      unfold LastResult.lookup
      dsimp only
      split_ifs with hlast
      · have hresult : result = f last := h (last, result) rfl
        exact ⟨h, hlast ▸ hresult⟩
      · exact ⟨valid_some key, rfl⟩

/-- **The cache is transparent**, where a call takes its key from what it is given. -/
theorem outputs_lookup {ι : Type*} (key : ι → κ) (calls : List ι) :
    Machine.outputs (fun cached call =>
        ((lookup f cached (key call)).1, [(lookup f cached (key call)).2])) none calls =
      calls.map fun call => f (key call) := by
  have hkeep (cached : Option (κ × β)) (call : ι) (h : Valid f cached) :
      Valid f (lookup f cached (key call)).1 ∧
        [(lookup f cached (key call)).2] = [f (key call)] := by
    obtain ⟨hvalid, hresult⟩ := h.lookup (key call)
    exact ⟨hvalid, congrArg (fun result => [result]) hresult⟩
  rw [Machine.outputs_eq_flatMap hkeep valid_none]
  exact List.map_eq_flatMap.symm

end LastResult
