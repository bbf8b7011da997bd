import Mathlib.Data.List.Basic

/-!
# Lists with separators

A list that is split at one separator, and whose parts are split at another, has been split
at both.  Lists that are joined in two passes with one separator are joined.
-/

namespace Dmerge
namespace Foundation

variable {alpha beta : Type}

theorem splitOnP_flatMap (p q : alpha -> Bool) (xs : List alpha) :
    (xs.splitOnP p).flatMap (fun part => part.splitOnP q) =
      xs.splitOnP fun x => p x || q x := by
  induction xs with
  | nil => rfl
  | cons x rest ih =>
      rcases List.exists_cons_of_ne_nil (List.splitOnP_ne_nil p rest) with ⟨head, tail, hrest⟩
      rcases List.exists_cons_of_ne_nil (List.splitOnP_ne_nil q head) with ⟨first, more, hhead⟩
      rw [List.splitOnP_cons_eq_if_modifyHead, List.splitOnP_cons_eq_if_modifyHead, ← ih, hrest]
      by_cases hp : p x = true
      · simp [hp]
      · by_cases hq : q x = true
        · simp [hp, hq, List.splitOnP_cons_eq_if_modifyHead]
        · simp [hp, hq, List.splitOnP_cons_eq_if_modifyHead, hhead]

theorem intercalate_append (sep : List alpha) {xs ys : List (List alpha)} (hxs : xs ≠ [])
    (hys : ys ≠ []) :
    sep.intercalate (xs ++ ys) = sep.intercalate xs ++ sep ++ sep.intercalate ys := by
  induction xs with
  | nil => exact absurd rfl hxs
  | cons x rest ih =>
      cases rest with
      | nil =>
          rw [List.singleton_append, List.intercalate_cons_of_ne_nil hys,
            List.intercalate_singleton]
      | cons y rest =>
          have hrest := ih (List.cons_ne_nil y rest)
          rw [List.cons_append, List.intercalate_cons_of_ne_nil (by simp), hrest,
            List.intercalate_cons_of_ne_nil (List.cons_ne_nil y rest)]
          simp only [List.append_assoc]

theorem length_intercalate (c : alpha) {w : Nat} {xs : List (List alpha)} (hne : xs ≠ [])
    (hlen : forall x, x ∈ xs -> x.length = w) :
    ([c].intercalate xs).length + 1 = xs.length * (w + 1) := by
  induction xs with
  | nil => exact absurd rfl hne
  | cons x rest ih =>
      have hx := hlen x List.mem_cons_self
      cases rest with
      | nil =>
          rw [List.intercalate_singleton, hx, List.length_singleton, Nat.one_mul]
      | cons y rest =>
          have hrest := ih (List.cons_ne_nil y rest)
            fun z hz => hlen z (List.mem_cons_of_mem x hz)
          rw [List.intercalate_cons_of_ne_nil (List.cons_ne_nil y rest), List.length_cons,
            Nat.succ_mul, ← hrest]
          simp only [List.length_append, List.length_singleton, hx]
          omega

theorem mem_intercalate {c sep : alpha} {xs : List (List alpha)} (h : c ∈ [sep].intercalate xs) :
    c = sep ∨ exists x, x ∈ xs ∧ c ∈ x := by
  induction xs with
  | nil => cases h
  | cons x rest ih =>
      cases rest with
      | nil =>
          rw [List.intercalate_singleton] at h
          exact Or.inr ⟨x, List.mem_cons_self, h⟩
      | cons y rest =>
          rw [List.intercalate_cons_of_ne_nil (List.cons_ne_nil y rest)] at h
          simp only [List.mem_append, List.mem_singleton] at h
          rcases h with (hx | hsep) | hrest
          · exact Or.inr ⟨x, List.mem_cons_self, hx⟩
          · exact Or.inl hsep
          · rcases ih hrest with hsep | ⟨z, hz, hc⟩
            · exact Or.inl hsep
            · exact Or.inr ⟨z, List.mem_cons_of_mem x hz, hc⟩

theorem append_sep_inj {sep : alpha} {xs ys tail tail' : List alpha} (hxs : sep ∉ xs)
    (hys : sep ∉ ys) (h : xs ++ sep :: tail = ys ++ sep :: tail') : xs = ys ∧ tail = tail' := by
  rcases List.append_eq_append_iff.mp h with ⟨mid, rfl, hmid⟩ | ⟨mid, rfl, hmid⟩
  · cases mid with
    | nil => exact ⟨(List.append_nil xs).symm, (List.cons.inj hmid).2⟩
    | cons c mid =>
        rw [(List.cons.inj hmid).1] at hys
        exact absurd (List.mem_append_right xs List.mem_cons_self) hys
  · cases mid with
    | nil => exact ⟨List.append_nil ys, (List.cons.inj hmid).2.symm⟩
    | cons c mid =>
        rw [(List.cons.inj hmid).1] at hxs
        exact absurd (List.mem_append_right ys List.mem_cons_self) hxs

theorem intercalate_flatMap (sep : List alpha) {parts : List beta} {f : beta -> List (List alpha)}
    (hf : forall part, part ∈ parts -> f part ≠ []) :
    sep.intercalate (parts.map fun part => sep.intercalate (f part)) =
      sep.intercalate (parts.flatMap f) := by
  induction parts with
  | nil => rfl
  | cons part rest ih =>
      have hpart := hf part List.mem_cons_self
      have hrest := ih fun other hother => hf other (List.mem_cons_of_mem part hother)
      cases rest with
      | nil => simp
      | cons other rest =>
          have hne : (other :: rest).flatMap f ≠ [] := by
            rw [List.flatMap_cons]
            intro hnil
            exact hf other (List.mem_cons_of_mem part List.mem_cons_self)
              (List.append_eq_nil_iff.mp hnil).1
          rw [List.flatMap_cons, intercalate_append sep hpart hne, ← hrest, List.map_cons,
            List.intercalate_cons_of_ne_nil]
          exact List.cons_ne_nil _ _

end Foundation
end Dmerge
