import Mathlib.Data.List.Induction

/-!
# Consecutive blocks

A list is cut into consecutive blocks of a fixed length, and what is left at its
end is shorter than a block.  Appending one element either makes the remainder
longer or completes a block.
-/

namespace Dmerge
namespace Foundation

variable {alpha beta : Type}

def fullBlocks (n : Nat) (l : List alpha) : List (List alpha) :=
  (List.range (l.length / n)).map fun i => (l.drop (i * n)).take n

def remainder (n : Nat) (l : List alpha) : List alpha := l.drop (l.length / n * n)

@[simp] theorem fullBlocks_nil (n : Nat) : fullBlocks n ([] : List alpha) = [] := by
  simp [fullBlocks]

@[simp] theorem remainder_nil (n : Nat) : remainder n ([] : List alpha) = [] := by
  simp [remainder]

@[simp] theorem length_fullBlocks (n : Nat) (l : List alpha) :
    (fullBlocks n l).length = l.length / n := by
  simp [fullBlocks]

theorem length_remainder (n : Nat) (l : List alpha) :
    (remainder n l).length = l.length % n := by
  unfold remainder
  rw [List.length_drop]
  have h := Nat.div_add_mod' l.length n
  omega

theorem length_remainder_lt {n : Nat} (hn : 1 ≤ n) (l : List alpha) :
    (remainder n l).length < n := by
  rw [length_remainder]
  exact Nat.mod_lt _ hn

theorem block_le_length {n i : Nat} {l : List alpha} (hi : i < l.length / n) :
    i * n + n ≤ l.length := by
  have hblock : (i + 1) * n ≤ l.length / n * n := Nat.mul_le_mul_right n hi
  have hlength := Nat.div_mul_le_self l.length n
  rw [Nat.succ_mul] at hblock
  exact Nat.le_trans hblock hlength

theorem remainder_subset (n : Nat) (l : List alpha) : remainder n l ⊆ l :=
  fun _ hx => List.mem_of_mem_drop hx

theorem fullBlocks_one {n : Nat} {l : List alpha} (h : l.length / n = 1) :
    fullBlocks n l = [l.take n] := by
  simp [fullBlocks, h]

/-!
## Appending one element
-/

section Append

variable {n : Nat} (l : List alpha) (x : alpha)

theorem block_append {i : Nat} (hi : i < l.length / n) :
    ((l ++ [x]).drop (i * n)).take n = (l.drop (i * n)).take n := by
  have hle := block_le_length hi
  rw [List.drop_append_of_le_length (by omega), List.take_append_of_le_length]
  rw [List.length_drop]
  omega

theorem drop_append_remainder :
    (l ++ [x]).drop (l.length / n * n) = remainder n l ++ [x] := by
  rw [List.drop_append_of_le_length (Nat.div_mul_le_self l.length n)]
  rfl

theorem length_div_of_short (hshort : (remainder n l).length + 1 < n) :
    (l ++ [x]).length / n = l.length / n := by
  rw [length_remainder] at hshort
  have h := Nat.div_add_mod' l.length n
  rw [List.length_append, List.length_singleton]
  apply Nat.div_eq_of_lt_le
  · omega
  · rw [Nat.succ_mul]
    omega

theorem length_div_of_full (hfull : (remainder n l).length + 1 = n) :
    (l ++ [x]).length / n = l.length / n + 1 := by
  rw [length_remainder] at hfull
  have h := Nat.div_add_mod' l.length n
  rw [List.length_append, List.length_singleton]
  apply Nat.div_eq_of_lt_le
  · rw [Nat.succ_mul]
    omega
  · rw [Nat.succ_mul, Nat.succ_mul]
    omega

theorem fullBlocks_append_short (hshort : (remainder n l).length + 1 < n) :
    fullBlocks n (l ++ [x]) = fullBlocks n l := by
  unfold fullBlocks
  rw [length_div_of_short l x hshort]
  apply List.map_congr_left
  intro i hi
  exact block_append l x (List.mem_range.mp hi)

theorem remainder_append_short (hshort : (remainder n l).length + 1 < n) :
    remainder n (l ++ [x]) = remainder n l ++ [x] := by
  rw [<- drop_append_remainder]
  unfold remainder
  rw [length_div_of_short l x hshort]

theorem fullBlocks_append_full (hfull : (remainder n l).length + 1 = n) :
    fullBlocks n (l ++ [x]) = fullBlocks n l ++ [remainder n l ++ [x]] := by
  have hlast : ((l ++ [x]).drop (l.length / n * n)).take n = remainder n l ++ [x] := by
    rw [drop_append_remainder]
    apply List.take_of_length_le
    rw [List.length_append, List.length_singleton]
    exact Nat.le_of_eq hfull
  have hbefore : (List.range (l.length / n)).map
      (fun i => ((l ++ [x]).drop (i * n)).take n) = fullBlocks n l := by
    apply List.map_congr_left
    intro i hi
    exact block_append l x (List.mem_range.mp hi)
  rw [<- hbefore, <- hlast]
  unfold fullBlocks
  rw [length_div_of_full l x hfull, List.range_succ, List.map_append, List.map_singleton]

theorem remainder_append_full (hfull : (remainder n l).length + 1 = n) :
    remainder n (l ++ [x]) = [] := by
  apply List.drop_eq_nil_of_le
  rw [length_div_of_full l x hfull, List.length_append, List.length_singleton, Nat.succ_mul]
  rw [length_remainder] at hfull
  have h := Nat.div_add_mod' l.length n
  omega

end Append

theorem flatten_fullBlocks_append {n : Nat} (hn : 1 ≤ n) (l : List alpha) :
    (fullBlocks n l).flatten ++ remainder n l = l := by
  induction l using List.reverseRecOn with
  | nil => rw [fullBlocks_nil, remainder_nil, List.flatten_nil, List.append_nil]
  | append_singleton l x ih =>
      have hlt := length_remainder_lt hn l
      by_cases hfull : (remainder n l).length + 1 = n
      · rw [fullBlocks_append_full l x hfull, remainder_append_full l x hfull,
          List.flatten_append, List.flatten_singleton, List.append_nil, <- List.append_assoc, ih]
      · have hshort : (remainder n l).length + 1 < n := by
          omega
        rw [fullBlocks_append_short l x hshort, remainder_append_short l x hshort,
          <- List.append_assoc, ih]

end Foundation
end Dmerge
