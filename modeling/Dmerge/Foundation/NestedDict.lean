import Mathlib.Data.List.AList

/-!
# Dictionaries of dictionaries

A value is found under two keys.  The values are also listed, so that it can be
said of all of them at once where each of them is.
-/

namespace Dmerge
namespace Foundation

variable {outer inner key value : Type} [DecidableEq outer] [DecidableEq key]

abbrev Dict (key value : Type) : Type := AList (fun _ : key => value)

namespace Dict

def values (d : Dict key value) : List value := d.entries.map fun e => e.2

@[simp] theorem values_insert (d : Dict key value) (k : key) (v : value) :
    values (d.insert k v) = v :: values (d.erase k) := rfl

theorem erase_of_lookup_none {d : Dict key value} {k : key} (h : d.lookup k = none) :
    d.erase k = d := by
  apply AList.ext
  exact List.kerase_of_notMem_keys (AList.lookup_eq_none.mp h)

theorem values_of_lookup {d : Dict key value} {k : key} {v : value}
    (h : d.lookup k = some v) : (values d).Perm (v :: values (d.erase k)) := by
  have hmem : k ∈ d.entries.keys := List.dlookup_isSome.mp (by rw [<- AList.lookup, h]; rfl)
  rcases List.exists_of_kerase hmem with ⟨v', before, after, hbefore, hd, herase⟩
  have hlookup : List.dlookup k d.entries = some v := h
  rw [hd, List.dlookup_append, List.dlookup_eq_none.mpr hbefore, Option.none_or,
    List.dlookup_cons_eq] at hlookup
  cases hlookup
  unfold values AList.erase
  simp only [herase, List.map_append]
  rw [hd, List.map_append, List.map_cons]
  exact List.perm_middle

theorem mem_values {d : Dict key value} {v : value} :
    v ∈ values d <-> exists k, d.lookup k = some v := by
  constructor
  · intro h
    rcases List.mem_map.mp h with ⟨⟨k, v'⟩, he, rfl⟩
    exact ⟨k, AList.mem_lookup_iff.mpr he⟩
  · rintro ⟨k, hk⟩
    exact (values_of_lookup hk).mem_iff.mpr List.mem_cons_self

theorem mem_values_erase {d : Dict key value} {k : key} {v : value}
    (h : v ∈ values (d.erase k)) : exists k', k' ≠ k ∧ d.lookup k' = some v := by
  rcases mem_values.mp h with ⟨k', hk'⟩
  have hne : k' ≠ k := by
    rintro rfl
    rw [AList.lookup_erase] at hk'
    cases hk'
  rw [AList.lookup_erase_ne hne] at hk'
  exact ⟨k', hne, hk'⟩

end Dict

/-!
## Two keys
-/

abbrev NestedDict (outer inner value : Type) : Type := Dict outer (Dict inner value)

namespace NestedDict

def row (d : NestedDict outer inner value) (a : outer) : Dict inner value :=
  (d.lookup a).getD ∅

def values (d : NestedDict outer inner value) : List value :=
  (Dict.values d).flatMap Dict.values

section Rows

variable (d : NestedDict outer inner value) (a a' : outer)

@[simp] theorem row_insert (e : Dict inner value) : row (d.insert a e) a = e := by
  unfold row
  rw [AList.lookup_insert]
  rfl

theorem row_insert_of_ne (e : Dict inner value) (h : a' ≠ a) :
    row (d.insert a e) a' = row d a' := by
  unfold row
  rw [AList.lookup_insert_ne h]

theorem row_insert_empty (h : d.lookup a = none) : row (d.insert a ∅) a' = row d a' := by
  by_cases ha : a' = a
  · subst ha
    rw [row_insert]
    unfold row
    rw [h]
    rfl
  · exact row_insert_of_ne d a a' ∅ ha

theorem values_insert (e : Dict inner value) :
    values (d.insert a e) = Dict.values e ++ values (d.erase a) := by
  unfold values
  rw [Dict.values_insert, List.flatMap_cons]

theorem values_row :
    (values d).Perm (Dict.values (row d a) ++ values (d.erase a)) := by
  cases hrow : d.lookup a with
  | none =>
      unfold row
      rw [hrow, Dict.erase_of_lookup_none hrow]
      exact List.Perm.refl _
  | some e =>
      unfold row values
      rw [hrow, <- List.flatMap_cons]
      exact (Dict.values_of_lookup hrow).flatMap_right _

end Rows

variable [DecidableEq inner]

def find (d : NestedDict outer inner value) (a : outer) (b : inner) : Option value :=
  (row d a).lookup b

def put (d : NestedDict outer inner value) (a : outer) (b : inner) (v : value) :
    NestedDict outer inner value :=
  d.insert a ((row d a).insert b v)

def remove (d : NestedDict outer inner value) (a : outer) (b : inner) :
    NestedDict outer inner value :=
  d.insert a ((row d a).erase b)

section Find

variable (d : NestedDict outer inner value) (a a' : outer) (b b' : inner)

@[simp] theorem find_put (v : value) : find (put d a b v) a b = some v := by
  unfold find put
  rw [row_insert, AList.lookup_insert]

theorem find_put_of_ne (v : value) (h : (a', b') ≠ (a, b)) :
    find (put d a b v) a' b' = find d a' b' := by
  unfold find put
  by_cases ha : a' = a
  · subst ha
    have hb : b' ≠ b := by
      intro hb
      exact h (by rw [hb])
    rw [row_insert, AList.lookup_insert_ne hb]
  · rw [row_insert_of_ne _ _ _ _ ha]

@[simp] theorem find_remove : find (remove d a b) a b = none := by
  unfold find remove
  rw [row_insert, AList.lookup_erase]

theorem find_remove_of_ne (h : (a', b') ≠ (a, b)) :
    find (remove d a b) a' b' = find d a' b' := by
  unfold find remove
  by_cases ha : a' = a
  · subst ha
    have hb : b' ≠ b := by
      intro hb
      exact h (by rw [hb])
    rw [row_insert, AList.lookup_erase_ne hb]
  · rw [row_insert_of_ne _ _ _ _ ha]

end Find

section Values

variable {d : NestedDict outer inner value} {a : outer} {b : inner} {v : value}

theorem values_put (d : NestedDict outer inner value) (a : outer) (b : inner) (v : value) :
    values (put d a b v) = v :: values (remove d a b) := by
  unfold put remove
  rw [values_insert, values_insert, Dict.values_insert, List.cons_append]

theorem remove_of_find_none (h : find d a b = none) : remove d a b = d.insert a (row d a) := by
  unfold remove
  rw [Dict.erase_of_lookup_none h]

theorem values_remove (h : find d a b = some v) :
    (values d).Perm (v :: values (remove d a b)) := by
  unfold remove
  rw [values_insert, <- List.cons_append]
  exact (values_row d a).trans ((Dict.values_of_lookup h).append_right _)

theorem values_put_of_none (h : find d a b = none) :
    (values (put d a b v)).Perm (v :: values d) := by
  rw [values_put, remove_of_find_none h, values_insert]
  exact List.Perm.cons v (values_row d a).symm

theorem values_put_of_find (h : find d a b = some v) :
    (values (put d a b v)).Perm (values d) := by
  rw [values_put]
  exact (values_remove h).symm

theorem put_insert_empty (h : d.lookup a = none) : put (d.insert a ∅) a b v = put d a b v := by
  unfold put
  rw [row_insert_empty d a a h, AList.insert_insert]

theorem mem_values_of_find (h : find d a b = some v) : v ∈ values d :=
  (values_remove h).mem_iff.mpr List.mem_cons_self

end Values
end NestedDict
end Foundation
end Dmerge
