import Mathlib.Data.Fintype.Card
import Mathlib.Logic.Function.Basic

/-!
# Counting barriers

Each of finitely many parties is done once and then adds one to a counter.  Who
waits until the counter has reached the number of parties has waited for all.
-/

namespace Dmerge
namespace Foundation

variable {iota sigma : Type} [Fintype iota]

def doneCount (done : sigma -> Bool) (states : iota -> sigma) : Nat :=
  (Finset.univ.filter fun i => done (states i) = true).card

variable {done : sigma -> Bool} {states : iota -> sigma} {i : iota} {s' : sigma}

theorem card_le_doneCount_iff :
    Fintype.card iota ≤ doneCount done states <-> forall i, done (states i) = true := by
  unfold doneCount
  constructor
  · intro h i
    have hall : (Finset.univ.filter fun i => done (states i) = true) = Finset.univ :=
      Finset.eq_univ_of_card _ (le_antisymm (Finset.card_le_univ _) h)
    have hi : i ∈ Finset.univ.filter fun i => done (states i) = true := by
      rw [hall]
      exact Finset.mem_univ i
    exact (Finset.mem_filter.mp hi).2
  · intro h
    rw [Finset.filter_true_of_mem fun i _ => h i, Finset.card_univ]

theorem doneCount_init {s : sigma} (h : done s = false) :
    doneCount done (fun _ : iota => s) = 0 := by
  unfold doneCount
  rw [Finset.card_eq_zero, Finset.filter_eq_empty_iff]
  intro i _ hi
  rw [h] at hi
  cases hi

variable [DecidableEq iota]

theorem doneCount_same (h : done s' = done (states i)) :
    doneCount done (Function.update states i s') = doneCount done states := by
  unfold doneCount
  congr 1
  apply Finset.filter_congr
  intro j _
  by_cases hj : j = i
  · subst hj
    rw [Function.update_self, h]
  · rw [Function.update_of_ne hj]

theorem doneCount_finish (hbefore : done (states i) = false) (hafter : done s' = true) :
    doneCount done (Function.update states i s') = doneCount done states + 1 := by
  unfold doneCount
  have hnot : i ∉ Finset.univ.filter fun j => done (states j) = true := by
    intro hi
    rw [Finset.mem_filter, hbefore] at hi
    cases hi.2
  rw [← Finset.card_insert_of_notMem hnot]
  congr 1
  ext j
  rw [Finset.mem_insert, Finset.mem_filter, Finset.mem_filter]
  by_cases hj : j = i
  · subst hj
    rw [Function.update_self]
    exact ⟨fun _ => Or.inl rfl, fun _ => ⟨Finset.mem_univ _, hafter⟩⟩
  · rw [Function.update_of_ne hj]
    exact ⟨fun h => Or.inr h, fun h => h.resolve_left hj⟩

end Foundation
end Dmerge
