import Mathlib.Data.List.Forall2

/-!
# Attempts over a list

A function that may fail is tried on one element after the other, up to the first
failure.
-/

namespace Dmerge
namespace Foundation

variable {alpha beta error : Type} {f : alpha -> Except error beta}

theorem ok_bind (a : alpha) (f : alpha -> Except error beta) : (Except.ok a >>= f) = f a := rfl

theorem bind_ok_iff {x : Except error alpha} {b : beta} :
    (x >>= f) = .ok b <-> exists a, x = .ok a ∧ f a = .ok b := by
  cases x with
  | error err =>
      constructor
      · intro h
        cases h
      · rintro ⟨a, ha, _⟩
        cases ha
  | ok a =>
      constructor
      · exact fun h => ⟨a, rfl, h⟩
      · rintro ⟨a', ha, h⟩
        cases ha
        exact h

theorem mapM_ok {g : alpha -> beta} {l : List alpha} (h : forall x, x ∈ l -> f x = .ok (g x)) :
    l.mapM f = .ok (l.map g) := by
  induction l with
  | nil => rfl
  | cons x rest ih =>
      rw [List.mapM_cons, h x List.mem_cons_self,
        ih (fun y hy => h y (List.mem_cons_of_mem x hy))]
      rfl

theorem mapM_ok_iff {l : List alpha} {r : List beta} :
    l.mapM f = .ok r <-> List.Forall₂ (fun x y => f x = .ok y) l r := by
  induction l generalizing r with
  | nil =>
      constructor
      · intro h
        cases h
        exact List.Forall₂.nil
      · intro h
        cases h
        rfl
  | cons x rest ih =>
      rw [List.mapM_cons]
      constructor
      · intro h
        rcases bind_ok_iff.mp h with ⟨y, hx, h⟩
        rcases bind_ok_iff.mp h with ⟨ys, hrest, h⟩
        cases h
        exact List.Forall₂.cons hx (ih.mp hrest)
      · intro h
        cases h with
        | cons hx hrest =>
            rw [hx, ih.mpr hrest]
            rfl

theorem exists_mapM_ok_iff {l : List alpha} :
    (exists r, l.mapM f = .ok r) <-> forall x, x ∈ l -> exists y, f x = .ok y := by
  constructor
  · rintro ⟨r, hr⟩ x hx
    rcases List.forall₂_iff_get.mp (mapM_ok_iff.mp hr) with ⟨hlen, hget⟩
    rcases List.get_of_mem hx with ⟨i, rfl⟩
    exact ⟨_, hget i.1 i.2 (by rw [← hlen]; exact i.2)⟩
  · intro h
    induction l with
    | nil => exact ⟨[], rfl⟩
    | cons x rest ih =>
        rcases h x List.mem_cons_self with ⟨y, hy⟩
        rcases ih fun z hz => h z (List.mem_cons_of_mem x hz) with ⟨ys, hys⟩
        exact ⟨y :: ys, mapM_ok_iff.mpr (List.Forall₂.cons hy (mapM_ok_iff.mp hys))⟩

theorem getLast?_of_mapM_ok {l : List alpha} {r : List beta} {y : beta} (h : l.mapM f = .ok r)
    (hlast : r.getLast? = some y) : exists x, l.getLast? = some x ∧ f x = .ok y := by
  have hreverse := List.rel_reverse (mapM_ok_iff.mp h)
  rw [List.getLast?_eq_head?_reverse] at hlast ⊢
  cases hr : r.reverse with
  | nil =>
      rw [hr] at hlast
      cases hlast
  | cons y' rest =>
      rw [hr] at hlast hreverse
      cases hlast
      rcases List.forall₂_cons_right_iff.mp hreverse with ⟨x, rest', hx, _, hl⟩
      exact ⟨x, by rw [hl]; rfl, hx⟩

end Foundation
end Dmerge
