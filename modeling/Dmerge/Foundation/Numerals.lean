import Mathlib.Data.Nat.Digits.Lemmas

/-!
# Numerals

A number is written as a list of digits, the most significant one first, and zero as a
single zero.  An alphabet says which characters are read as digits, and with which of them
a digit is printed; more characters may be read than are printed.
-/

namespace Dmerge
namespace Foundation
namespace Numerals

def value (b : Nat) (ds : List Nat) : Nat := ds.foldl (fun n d => n * b + d) 0

def digits (b n : Nat) : List Nat := if n = 0 then [0] else (Nat.digits b n).reverse

def pad (w : Nat) (ds : List Nat) : List Nat := List.replicate (w - ds.length) 0 ++ ds

section Digits

variable {b w n : Nat} {ds : List Nat}

theorem value_eq_ofDigits (b : Nat) (ds : List Nat) : value b ds = Nat.ofDigits b ds.reverse := by
  induction ds using List.reverseRecOn with
  | nil => rfl
  | append_singleton rest d ih =>
      have hfold : value b (rest ++ [d]) = value b rest * b + d := by
        unfold value
        rw [List.foldl_append]
        rfl
      rw [hfold, ih, List.reverse_append, List.reverse_singleton, List.singleton_append,
        Nat.ofDigits_cons, Nat.mul_comm, Nat.add_comm]

theorem value_digits (b n : Nat) : value b (digits b n) = n := by
  rw [value_eq_ofDigits]
  unfold digits
  split
  · next h =>
      rw [h]
      rfl
  · rw [List.reverse_reverse, Nat.ofDigits_digits]

theorem digits_lt (hb : 1 < b) {d : Nat} (hd : d ∈ digits b n) : d < b := by
  unfold digits at hd
  split at hd
  · rw [List.mem_singleton.mp hd]
    exact Nat.zero_lt_of_lt hb
  · exact Nat.digits_lt_base hb (List.mem_reverse.mp hd)

theorem length_digits_le_iff (hb : 1 < b) (hw : 0 < w) :
    (digits b n).length ≤ w <-> n < b ^ w := by
  unfold digits
  split
  · next h =>
      rw [h]
      exact ⟨fun _ => Nat.pow_pos (Nat.zero_lt_of_lt hb), fun _ => hw⟩
  · rw [List.length_reverse]
    exact Nat.digits_length_le_iff hb n

theorem value_pad (w : Nat) (ds : List Nat) : value b (pad w ds) = value b ds := by
  rw [value_eq_ofDigits, value_eq_ofDigits]
  unfold pad
  rw [List.reverse_append, List.reverse_replicate, Nat.ofDigits_append_replicate_zero]

theorem length_pad (h : ds.length ≤ w) : (pad w ds).length = w := by
  unfold pad
  rw [List.length_append, List.length_replicate]
  omega

theorem pad_lt (hb : 1 < b) (hds : forall d, d ∈ ds -> d < b) {d : Nat} (hd : d ∈ pad w ds) :
    d < b := by
  rcases List.mem_append.mp hd with hzero | hmem
  · rw [(List.mem_replicate.mp hzero).2]
    exact Nat.zero_lt_of_lt hb
  · exact hds d hmem

end Digits
end Numerals

open Numerals

structure Alphabet (b : Nat) where
  digit : Char -> Option Nat
  char : Nat -> Char
  digit_lt : forall {c d}, digit c = some d -> d < b
  digit_char : forall {d}, d < b -> digit (char d) = some d

namespace Alphabet

variable {b : Nat} (A : Alphabet b)

def read (s : List Char) : Option Nat := (s.mapM A.digit).map (value b)

def print (n : Nat) : List Char := (digits b n).map A.char

def printPadded (w n : Nat) : List Char := (pad w (digits b n)).map A.char

theorem mapM_digit {ds : List Nat} (hds : forall d, d ∈ ds -> d < b) :
    (ds.map A.char).mapM A.digit = some ds := by
  induction ds with
  | nil => rfl
  | cons d rest ih =>
      rw [List.map_cons, List.mapM_cons, A.digit_char (hds d List.mem_cons_self),
        ih (fun e he => hds e (List.mem_cons_of_mem d he))]
      rfl

theorem read_map_char {ds : List Nat} (hds : forall d, d ∈ ds -> d < b) :
    A.read (ds.map A.char) = some (value b ds) := by
  unfold read
  rw [A.mapM_digit hds]
  rfl

theorem read_print (hb : 1 < b) (n : Nat) : A.read (A.print n) = some n := by
  unfold print
  rw [A.read_map_char (fun _ => digits_lt hb), value_digits]

theorem read_printPadded (hb : 1 < b) (w n : Nat) : A.read (A.printPadded w n) = some n := by
  unfold printPadded
  rw [A.read_map_char (fun _ => pad_lt hb (fun _ => digits_lt hb)), value_pad, value_digits]

theorem length_printPadded (hb : 1 < b) {w n : Nat} (hw : 0 < w) (hn : n < b ^ w) :
    (A.printPadded w n).length = w := by
  unfold printPadded
  rw [List.length_map, length_pad ((length_digits_le_iff hb hw).mpr hn)]

theorem length_print_le_one_iff (hb : 1 < b) {n : Nat} : (A.print n).length ≤ 1 <-> n < b := by
  unfold print
  rw [List.length_map, length_digits_le_iff hb Nat.one_pos, Nat.pow_one]

end Alphabet
end Foundation
end Dmerge
