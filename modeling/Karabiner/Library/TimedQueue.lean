import Mathlib.Data.List.DropRight
import Mathlib.Order.Lattice

/-!
# Queues that are kept in the order of a key

A new element goes behind the last one whose key is not larger than its own, so elements with the
same key stay in the order in which they came.  The queue need not be sorted for that.

* `exists_insert` — where a new element goes.
* `pairwise_between` — how it may stand to the others.
* `filterMap_insert` — among the elements with one key, it is the last.
-/

namespace TimedQueue

variable {α β κ : Type*} [LinearOrder κ]

/-- Insert `x` behind the last element whose key is not larger than that of `x`. -/
def insert (key : α → κ) (x : α) (queue : List α) : List α :=
  queue.rdropWhile (fun y => key x < key y) ++ x :: queue.rtakeWhile fun y => key x < key y

variable {key : α → κ}

/-- **Where a new element goes**: all elements behind it have a larger key. -/
theorem exists_insert (key : α → κ) (x : α) (queue : List α) :
    ∃ before after, queue = before ++ after ∧ insert key x queue = before ++ x :: after ∧
      ∀ y ∈ after, key x < key y := by
  refine ⟨queue.rdropWhile _, queue.rtakeWhile _, ?_, rfl, fun y hy => ?_⟩
  · induction queue using List.reverseRecOn with
    | nil => rfl
    | append_singleton queue y ih =>
        rw [List.rdropWhile_concat, List.rtakeWhile_concat]
        split_ifs
        · rw [← List.append_assoc, ← ih]
        · exact (List.append_nil _).symm
  · have hlarger := List.mem_rtakeWhile_imp hy
    exact of_decide_eq_true hlarger

/-- A new element between those before and those after it. -/
theorem pairwise_between {R : α → α → Prop} {before after : List α} {x : α}
    (h : (before ++ after).Pairwise R) (hbefore : ∀ y ∈ before, R y x)
    (hafter : ∀ y ∈ after, R x y) : (before ++ x :: after).Pairwise R := by
  obtain ⟨hfirst, hlast, hacross⟩ := List.pairwise_append.mp h
  refine List.pairwise_append.mpr
    ⟨hfirst, List.pairwise_cons.mpr ⟨hafter, hlast⟩, fun y hy z hz => ?_⟩
  rcases List.mem_cons.mp hz with rfl | hz
  · exact hbefore y hy
  · exact hacross y hy z hz

/-- What is selected by its key, and of the elements with that key the new one is the last. -/
theorem filterMap_insert {select : α → Option β} {k : κ}
    (hselect : ∀ y, (select y).isSome → key y = k) (x : α) (queue : List α) :
    (insert key x queue).filterMap select = queue.filterMap select ++ (select x).toList := by
  obtain ⟨before, after, rfl, hinsert, hafter⟩ := exists_insert key x queue
  rw [hinsert, List.filterMap_append, List.filterMap_append, List.append_assoc]
  congr 1
  cases hx : select x with
  | none => rw [List.filterMap_cons_none hx, Option.toList_none, List.append_nil]
  | some z =>
      have hnone : after.filterMap select = [] := by
        apply List.filterMap_eq_nil_iff.mpr
        intro y hy
        by_contra hsome
        have hkey := hafter y hy
        rw [hselect x (by rw [hx]; rfl), hselect y (Option.isSome_iff_ne_none.mpr hsome)] at hkey
        exact lt_irrefl k hkey
      rw [List.filterMap_cons_some hx, hnone]
      rfl

end TimedQueue
