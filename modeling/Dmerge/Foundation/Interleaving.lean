import Mathlib.Data.List.Perm.Basic

/-!
# Interleavings

Processes that run at the same time take their steps in any order, each process its own
steps in its own order.
-/

namespace Dmerge
namespace Foundation

variable {alpha : Type}

inductive Shuffled : List alpha -> List alpha -> List alpha -> Prop where
  | nil : Shuffled [] [] []
  | left (a : alpha) {first second all : List alpha} (h : Shuffled first second all) :
      Shuffled (a :: first) second (a :: all)
  | right (a : alpha) {first second all : List alpha} (h : Shuffled first second all) :
      Shuffled first (a :: second) (a :: all)

inductive Interleaved : List (List alpha) -> List alpha -> Prop where
  | nil : Interleaved [] []
  | cons {first : List alpha} {others : List (List alpha)} {rest all : List alpha}
      (hothers : Interleaved others rest) (h : Shuffled first rest all) :
      Interleaved (first :: others) all

theorem Shuffled.perm {first second all : List alpha} (h : Shuffled first second all) :
    all.Perm (first ++ second) := by
  induction h with
  | nil => exact List.Perm.nil
  | left a h ih => exact ih.cons a
  | right a h ih => exact (ih.cons a).trans List.perm_middle.symm

theorem Shuffled.eq_left {first all : List alpha} (h : Shuffled first [] all) : all = first := by
  induction first generalizing all with
  | nil =>
      cases h
      rfl
  | cons a rest ih =>
      cases h with
      | left a h => rw [ih h]

theorem Shuffled.append (first second : List alpha) :
    Shuffled first second (first ++ second) := by
  induction first with
  | nil =>
      induction second with
      | nil => exact Shuffled.nil
      | cons a rest ih => exact Shuffled.right a ih
  | cons a rest ih => exact Shuffled.left a ih

theorem Interleaved.perm {processes : List (List alpha)} {all : List alpha}
    (h : Interleaved processes all) : all.Perm processes.flatten := by
  induction h with
  | nil => exact List.Perm.nil
  | cons hothers h ih => exact h.perm.trans (ih.append_left _)

theorem Interleaved.eq_singleton {first all : List alpha} (h : Interleaved [first] all) :
    all = first := by
  cases h with
  | cons hothers h =>
      cases hothers
      exact h.eq_left

theorem Interleaved.sequential (processes : List (List alpha)) :
    Interleaved processes processes.flatten := by
  induction processes with
  | nil => exact Interleaved.nil
  | cons first others ih => exact Interleaved.cons ih (Shuffled.append first others.flatten)

end Foundation
end Dmerge
