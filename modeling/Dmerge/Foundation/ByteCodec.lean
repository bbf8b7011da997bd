import Mathlib.Tactic.Ring
import Mathlib.Tactic.NormNum

/-!
# Byte codecs

Little-endian words of a fixed width, and codecs that carry their own laws: a
value is read back from its encoding whatever bytes follow it, and the encoder
reports the length it writes.  Codecs of records are built from codecs of
words by the combinators at the end.
-/

namespace Dmerge
namespace Foundation

abbrev Bytes := List UInt8

/-!
## Little-endian words
-/

/-- The lowest `w` bytes of a number, least significant first. -/
def toLE : Nat -> Nat -> Bytes
  | 0, _ => []
  | w + 1, n => UInt8.ofNat (n % 256) :: toLE w (n / 256)

def fromLE : Bytes -> Nat
  | [] => 0
  | b :: rest => b.toNat + 256 * fromLE rest

@[simp] theorem length_toLE (w n : Nat) : (toLE w n).length = w := by
  induction w generalizing n with
  | zero => rfl
  | succ w ih => simp [toLE, ih]

theorem fromLE_toLE (w n : Nat) : fromLE (toLE w n) = n % 256 ^ w := by
  induction w generalizing n with
  | zero => simp [toLE, fromLE, Nat.mod_one]
  | succ w ih =>
      have hbyte : (UInt8.ofNat (n % 256)).toNat = n % 256 := by
        rw [UInt8.toNat_ofNat']
        exact Nat.mod_eq_of_lt (Nat.mod_lt n (by decide))
      rw [toLE, fromLE, ih, hbyte, pow_succ', Nat.mod_mul]

theorem fromLE_toLE_of_lt {w n : Nat} (h : n < 256 ^ w) :
    fromLE (toLE w n) = n := by
  rw [fromLE_toLE, Nat.mod_eq_of_lt h]

/-!
## Codecs
-/

structure Codec (alpha : Type) where
  encode : alpha -> Bytes
  decode : Bytes -> Option alpha
  bufLen : alpha -> Nat
  decode_encode : forall a rest, decode (encode a ++ rest) = some a
  length_encode : forall a, (encode a).length = bufLen a

/-- A codec of records of one size, as a plain copy of memory gives it: it
rejects exactly the buffers that are too short to hold a record. -/
structure FixedCodec (alpha : Type) extends Codec alpha where
  size : Nat
  bufLen_eq : forall a, bufLen a = size
  decode_short : forall bs : Bytes, bs.length < size -> decode bs = none

namespace Codec

variable {alpha : Type} (c : Codec alpha)

@[simp] theorem decode_encode_nil (a : alpha) : c.decode (c.encode a) = some a := by
  simpa using c.decode_encode a []

theorem encode_injective : Function.Injective c.encode := by
  intro a b h
  have hdecode : some a = some b := by
    rw [← c.decode_encode_nil a, ← c.decode_encode_nil b, h]
  exact Option.some.inj hdecode

end Codec

namespace FixedCodec

variable {alpha beta : Type}

theorem length_encode_eq (c : FixedCodec alpha) (a : alpha) :
    (c.encode a).length = c.size := by
  rw [c.length_encode, c.bufLen_eq]

theorem decode_nil (c : FixedCodec alpha) {a b : alpha} (hne : a ≠ b) :
    c.decode [] = none := by
  apply c.decode_short
  apply Nat.pos_of_ne_zero
  intro hzero
  apply hne
  apply c.encode_injective
  have ha : c.encode a = [] := List.eq_nil_of_length_eq_zero (by rw [c.length_encode_eq, hzero])
  have hb : c.encode b = [] := List.eq_nil_of_length_eq_zero (by rw [c.length_encode_eq, hzero])
  rw [ha, hb]

/-!
## Codecs of words and records
-/

/-- A word of `w` bytes read through a type that stores exactly such words. -/
def word (w : Nat) (toNat : alpha -> Nat) (ofNat : Nat -> alpha)
    (hlt : forall a, toNat a < 256 ^ w) (hof : forall a, ofNat (toNat a) = a) :
    FixedCodec alpha where
  encode a := toLE w (toNat a)
  decode bs := if bs.length < w then none else some (ofNat (fromLE (bs.take w)))
  bufLen _ := w
  size := w
  decode_encode a rest := by
    have hlen : ¬ (toLE w (toNat a) ++ rest).length < w := by simp
    have htake : (toLE w (toNat a) ++ rest).take w = toLE w (toNat a) := by
      rw [List.take_append_of_le_length (by simp)]
      exact List.take_of_length_le (by simp)
    rw [if_neg hlen, htake, fromLE_toLE_of_lt (hlt a), hof]
  length_encode a := by simp
  bufLen_eq _ := rfl
  decode_short bs h := if_pos h

def word64 : FixedCodec UInt64 :=
  word 8 UInt64.toNat UInt64.ofNat (fun a => a.toNat_lt) (fun _ => UInt64.ofNat_toNat)

def prod (c : FixedCodec alpha) (d : FixedCodec beta) : FixedCodec (alpha × beta) where
  encode p := c.encode p.1 ++ d.encode p.2
  decode bs := (c.decode bs).bind fun a => (d.decode (bs.drop c.size)).map fun b => (a, b)
  bufLen _ := c.size + d.size
  size := c.size + d.size
  decode_encode p rest := by
    have hdrop : (c.encode p.1 ++ (d.encode p.2 ++ rest)).drop c.size =
        d.encode p.2 ++ rest := by
      rw [← c.length_encode_eq p.1]
      exact List.drop_left
    rw [List.append_assoc, c.decode_encode, Option.bind_some, hdrop, d.decode_encode]
    rfl
  length_encode p := by
    rw [List.length_append, c.length_encode_eq, d.length_encode_eq]
  bufLen_eq _ := rfl
  decode_short bs h := by
    by_cases hc : bs.length < c.size
    · rw [c.decode_short bs hc, Option.bind_none]
    · have hd : (bs.drop c.size).length < d.size := by
        rw [List.length_drop]
        omega
      cases c.decode bs with
      | none => rfl
      | some a => rw [Option.bind_some, d.decode_short _ hd, Option.map_none]

/-- A record read through an equivalent type. -/
def map (c : FixedCodec alpha) (fwd : alpha -> beta) (back : beta -> alpha)
    (hback : forall b, fwd (back b) = b) : FixedCodec beta where
  encode b := c.encode (back b)
  decode bs := (c.decode bs).map fwd
  bufLen _ := c.size
  size := c.size
  decode_encode b rest := by
    rw [c.decode_encode, Option.map_some, hback]
  length_encode b := c.length_encode_eq (back b)
  bufLen_eq _ := rfl
  decode_short bs h := by
    rw [c.decode_short bs h, Option.map_none]

end FixedCodec
end Foundation
end Dmerge
