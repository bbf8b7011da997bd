import Mathlib.Data.Finmap

/-!
# Finite maps filled from a list

A loop that inserts the pairs of a list one after the other leaves the last
value of each key in the map.
-/

namespace Dmerge
namespace Foundation

variable {key value : Type} [DecidableEq key]

def insertAll (m : Finmap (fun _ : key => value)) (ps : List (key × value)) :
    Finmap (fun _ : key => value) :=
  ps.foldl (fun m p => m.insert p.1 p.2) m

@[simp] theorem insertAll_nil (m : Finmap (fun _ : key => value)) :
    insertAll m [] = m := rfl

@[simp] theorem insertAll_cons (m : Finmap (fun _ : key => value))
    (p : key × value) (ps : List (key × value)) :
    insertAll m (p :: ps) = insertAll (m.insert p.1 p.2) ps := rfl

theorem insertAll_append (m : Finmap (fun _ : key => value))
    (ps qs : List (key × value)) :
    insertAll m (ps ++ qs) = insertAll (insertAll m ps) qs :=
  List.foldl_append

theorem mem_of_lookup_insertAll {m : Finmap (fun _ : key => value)}
    {ps : List (key × value)} {k : key} {v : value}
    (h : (insertAll m ps).lookup k = some v) :
    (k, v) ∈ ps ∨ m.lookup k = some v := by
  induction ps generalizing m with
  | nil => exact Or.inr h
  | cons p rest ih =>
      cases ih h with
      | inl hmem => exact Or.inl (List.mem_cons_of_mem p hmem)
      | inr hlook =>
          by_cases hk : k = p.1
          · subst hk
            rw [Finmap.lookup_insert] at hlook
            cases hlook
            exact Or.inl List.mem_cons_self
          · rw [Finmap.lookup_insert_of_ne _ hk] at hlook
            exact Or.inr hlook

theorem lookup_insertAll_of_not_mem {m : Finmap (fun _ : key => value)}
    {ps : List (key × value)} {k : key} (h : forall v, (k, v) ∉ ps) :
    (insertAll m ps).lookup k = m.lookup k := by
  induction ps generalizing m with
  | nil => rfl
  | cons p rest ih =>
      have hk : k ≠ p.1 := by
        intro hk
        exact h p.2 (by simp [hk])
      rw [insertAll_cons, ih (fun v hv => h v (List.mem_cons_of_mem p hv)),
        Finmap.lookup_insert_of_ne _ hk]

theorem lookup_insertAll_of_mem {m : Finmap (fun _ : key => value)}
    {ps : List (key × value)} {k : key} {v : value} (hmem : (k, v) ∈ ps)
    (hunique : forall v', (k, v') ∈ ps -> v' = v) :
    (insertAll m ps).lookup k = some v := by
  induction ps generalizing m with
  | nil => cases hmem
  | cons p rest ih =>
      have hrest : forall v', (k, v') ∈ rest -> v' = v := fun v' hv' =>
        hunique v' (List.mem_cons_of_mem p hv')
      rw [insertAll_cons]
      by_cases hin : (k, v) ∈ rest
      · exact ih hin hrest
      · have hp : p = (k, v) := by
          cases hmem with
          | head => rfl
          | tail _ htail => exact absurd htail hin
        have hnone : forall v', (k, v') ∉ rest := by
          intro v' hv'
          rw [hrest v' hv'] at hv'
          exact hin hv'
        rw [lookup_insertAll_of_not_mem hnone, hp, Finmap.lookup_insert]

theorem lookup_insertAll_empty_iff {ps : List (key × value)} {k : key} {v : value}
    (hunique : forall v v', (k, v) ∈ ps -> (k, v') ∈ ps -> v = v') :
    (insertAll (∅ : Finmap (fun _ : key => value)) ps).lookup k = some v <->
      (k, v) ∈ ps := by
  constructor
  · intro h
    cases mem_of_lookup_insertAll h with
    | inl hmem => exact hmem
    | inr hempty =>
        rw [Finmap.lookup_empty] at hempty
        cases hempty
  · intro hmem
    exact lookup_insertAll_of_mem hmem (fun v' hv' => hunique v' v hv' hmem)

end Foundation
end Dmerge
