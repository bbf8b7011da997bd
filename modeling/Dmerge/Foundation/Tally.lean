import Mathlib.Algebra.BigOperators.Group.List.Basic
import Mathlib.Algebra.Order.Ring.Nat
import Dmerge.Foundation.NestedDict

/-!
# Counting dictionaries

A loop that adds to what stands under a key, or puts a first number there.  How
much stands under a key in the end is what the loop has added for it; two loops
that add positive numbers leave equal dictionaries exactly when they add the
same for every key.
-/

namespace Dmerge
namespace Foundation
namespace Dict

variable {key : Type} [DecidableEq key]

def amount (d : Dict key Nat) (k : key) : Nat := (d.lookup k).getD 0

/-- `d[k] = n` if the key is not there, and `d[k] += n` if it is. -/
def bump (d : Dict key Nat) (k : key) (n : Nat) : Dict key Nat :=
  match d.lookup k with
  | none => d.insert k n
  | some m => d.insert k (m + n)

def bumpAll (d : Dict key Nat) (ps : List (key × Nat)) : Dict key Nat :=
  ps.foldl (fun d p => d.bump p.1 p.2) d

/-- `d.items()` -/
def items (d : Dict key Nat) : List (key × Nat) := d.entries.map fun e => (e.1, e.2)

def total (d : Dict key Nat) : Nat := (values d).sum

/-- What stands under all other keys. -/
def rest (d : Dict key Nat) (k : key) : Nat := total (d.erase k)

def share (ps : List (key × Nat)) (k : key) : Nat :=
  ((ps.filter fun p => p.1 = k).map fun p => p.2).sum

/-!
## Amounts
-/

section Amounts

variable (d : Dict key Nat) (k k' : key) (n : Nat)

@[simp] theorem amount_empty : amount (∅ : Dict key Nat) k = 0 := rfl

@[simp] theorem amount_insert : amount (d.insert k n) k = n := by
  unfold amount
  rw [AList.lookup_insert]
  rfl

theorem amount_insert_of_ne (h : k' ≠ k) : amount (d.insert k n) k' = amount d k' := by
  unfold amount
  rw [AList.lookup_insert_ne h]

theorem bump_eq : bump d k n = d.insert k (amount d k + n) := by
  unfold bump amount
  cases d.lookup k with
  | none => simp
  | some m => rfl

theorem amount_bump :
    amount (bump d k n) k' = amount d k' + if k = k' then n else 0 := by
  rw [bump_eq]
  by_cases h : k = k'
  · subst h
    rw [amount_insert, if_pos rfl]
  · rw [amount_insert_of_ne _ _ _ _ (Ne.symm h), if_neg h, Nat.add_zero]

end Amounts

/-!
## Totals
-/

section Totals

variable (d : Dict key Nat) (k : key) (n : Nat)

theorem amount_add_rest : amount d k + rest d k = total d := by
  unfold amount rest total
  cases h : d.lookup k with
  | none => rw [erase_of_lookup_none h, Option.getD_none, Nat.zero_add]
  | some v => rw [(values_of_lookup h).sum_eq, List.sum_cons, Option.getD_some]

theorem total_insert : total (d.insert k n) = n + rest d k := by
  unfold total rest
  rw [values_insert, List.sum_cons]
  rfl

theorem rest_insert : rest (d.insert k n) k = rest d k := by
  have hsum := amount_add_rest (d.insert k n) k
  rw [amount_insert, total_insert] at hsum
  exact Nat.add_left_cancel hsum

theorem total_bump : total (bump d k n) = total d + n := by
  have hsum := amount_add_rest d k
  rw [bump_eq, total_insert]
  omega

theorem total_bumpAll (ps : List (key × Nat)) :
    total (bumpAll d ps) = total d + (ps.map fun p => p.2).sum := by
  induction ps generalizing d with
  | nil => rfl
  | cons p ps ih =>
      have hps := ih (d.bump p.1 p.2)
      rw [total_bump, Nat.add_assoc, ← List.sum_cons] at hps
      exact hps

omit [DecidableEq key] in
theorem sum_items : ((items d).map fun p => p.2).sum = total d := by
  unfold items total values
  rw [List.map_map]
  rfl

omit [DecidableEq key] in
theorem sum_flatMap_items (l : List (Dict key Nat)) :
    ((l.flatMap items).map fun p => p.2).sum = (l.map total).sum := by
  induction l with
  | nil => rfl
  | cons d l ih =>
      rw [List.flatMap_cons, List.map_append, List.sum_append, sum_items, ih, List.map_cons,
        List.sum_cons]

variable {d k n}

theorem amount_of_lookup (h : d.lookup k = some n) : amount d k = n := by
  unfold amount
  rw [h]
  rfl

end Totals

/-!
## Shares
-/

@[simp] theorem share_nil (k : key) : share ([] : List (key × Nat)) k = 0 := rfl

theorem share_cons (p : key × Nat) (ps : List (key × Nat)) (k : key) :
    share (p :: ps) k = (if p.1 = k then p.2 else 0) + share ps k := by
  unfold share
  by_cases h : p.1 = k
  · simp [h]
  · simp [h]

theorem share_append (ps qs : List (key × Nat)) (k : key) :
    share (ps ++ qs) k = share ps k + share qs k := by
  simp [share, List.filter_append]

theorem share_flatMap {alpha : Type} (l : List alpha) (f : alpha -> List (key × Nat)) (k : key) :
    share (l.flatMap f) k = (l.map fun x => share (f x) k).sum := by
  induction l with
  | nil => rfl
  | cons x rest ih => rw [List.flatMap_cons, share_append, ih, List.map_cons, List.sum_cons]

theorem share_ones (l : List key) (k : key) :
    share (l.map fun x => (x, 1)) k = l.count k := by
  induction l with
  | nil => rfl
  | cons x rest ih =>
      rw [List.map_cons, share_cons, ih, List.count_cons, Nat.add_comm]
      simp

theorem amount_bumpAll (d : Dict key Nat) (ps : List (key × Nat)) (k : key) :
    amount (bumpAll d ps) k = amount d k + share ps k := by
  induction ps generalizing d with
  | nil => rfl
  | cons p rest ih =>
      have hrest := ih (d.bump p.1 p.2)
      rw [amount_bump, Nat.add_assoc, <- share_cons] at hrest
      exact hrest

theorem share_items (d : Dict key Nat) (k : key) : share (items d) k = amount d k := by
  have hentries : forall l : List (Sigma fun _ : key => Nat), l.NodupKeys ->
      share (l.map fun e => (e.1, e.2)) k = (List.dlookup k l).getD 0 := by
    intro l
    induction l with
    | nil =>
        intro _
        rfl
    | cons e rest ih =>
        intro hnodup
        rcases List.nodupKeys_cons.mp hnodup with ⟨hnew, hrest⟩
        rw [List.map_cons, share_cons, ih hrest]
        rcases e with ⟨k', v⟩
        by_cases hk : k' = k
        · subst hk
          rw [List.dlookup_eq_none.mpr hnew, List.dlookup_cons_eq]
          simp
        · rw [List.dlookup_cons_ne _ _ (Ne.symm hk)]
          simp [hk]
  exact hentries d.entries d.nodupKeys

/-!
## Equality
-/

def Positive (d : Dict key Nat) : Prop := forall k n, d.lookup k = some n -> 0 < n

/-- What `==` compares. -/
def Same (d d' : Dict key Nat) : Prop := forall k, d.lookup k = d'.lookup k

theorem positive_empty : Positive (∅ : Dict key Nat) := by
  intro k n h
  cases h

theorem Positive.bump {d : Dict key Nat} (hd : Positive d) (k : key) {n : Nat} (hn : 0 < n) :
    Positive (d.bump k n) := by
  intro k' m hm
  rw [bump_eq] at hm
  by_cases hk : k' = k
  · subst hk
    rw [AList.lookup_insert] at hm
    cases hm
    exact Nat.add_pos_right _ hn
  · rw [AList.lookup_insert_ne hk] at hm
    exact hd k' m hm

theorem Positive.bumpAll {d : Dict key Nat} (hd : Positive d) {ps : List (key × Nat)}
    (hps : forall p, p ∈ ps -> 0 < p.2) : Positive (d.bumpAll ps) := by
  induction ps generalizing d with
  | nil => exact hd
  | cons p rest ih =>
      apply ih
      · exact hd.bump p.1 (hps p List.mem_cons_self)
      · exact fun q hq => hps q (List.mem_cons_of_mem p hq)

theorem Positive.items {d : Dict key Nat} (hd : Positive d) :
    forall p, p ∈ items d -> 0 < p.2 := by
  intro p hp
  rcases List.mem_map.mp hp with ⟨⟨k, n⟩, he, rfl⟩
  apply hd k n
  exact AList.mem_lookup_iff.mpr he

theorem Positive.lookup_eq {d : Dict key Nat} (hd : Positive d) (k : key) :
    d.lookup k = if amount d k = 0 then none else some (amount d k) := by
  unfold amount
  cases hlookup : d.lookup k with
  | none => rfl
  | some n =>
      have hn := hd k n hlookup
      simp only [Option.getD_some]
      rw [if_neg (by omega)]

theorem same_iff {d d' : Dict key Nat} (hd : Positive d) (hd' : Positive d') :
    Same d d' <-> forall k, amount d k = amount d' k := by
  constructor
  · intro h k
    unfold amount
    rw [h k]
  · intro h k
    rw [hd.lookup_eq, hd'.lookup_eq, h k]

end Dict
end Foundation
end Dmerge
