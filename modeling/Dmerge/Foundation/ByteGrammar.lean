import Dmerge.Foundation.ByteReader

/-!
# What a reader accepts

A reader that succeeds has read its input from the front: the input is what the
reader took, followed by what it left.  Each fact here turns a success of a reader
into such a decomposition; a codec that is exact accepts nothing but what it
writes.
-/

namespace Dmerge
namespace Foundation

variable {alpha beta : Type}

/-!
## Words
-/

theorem toLE_fromLE (bs : Bytes) : toLE bs.length (fromLE bs) = bs := by
  induction bs with
  | nil => rfl
  | cons b rest ih =>
      have hlow : (b.toNat + 256 * fromLE rest) % 256 = b.toNat := by
        rw [Nat.add_mul_mod_self_left, Nat.mod_eq_of_lt b.toNat_lt]
      have hhigh : (b.toNat + 256 * fromLE rest) / 256 = fromLE rest := by
        rw [Nat.add_mul_div_left _ _ (by decide), Nat.div_eq_of_lt b.toNat_lt, Nat.zero_add]
      rw [List.length_cons, fromLE, toLE, hlow, hhigh, ih, UInt8.ofNat_toNat]

theorem fromLE_lt (bs : Bytes) : fromLE bs < 256 ^ bs.length := by
  induction bs with
  | nil => decide
  | cons b rest ih =>
      have hb : b.toNat < 256 := b.toNat_lt
      rw [fromLE, List.length_cons, pow_succ]
      omega

/-!
## Exact codecs
-/

def Codec.Exact (c : Codec alpha) : Prop :=
  forall bs a, c.decode bs = some a -> exists rest, bs = c.encode a ++ rest

namespace FixedCodec

theorem exact_word {w : Nat} {toNat : alpha -> Nat} {ofNat : Nat -> alpha}
    (hlt : forall a, toNat a < 256 ^ w) (hof : forall a, ofNat (toNat a) = a)
    (hto : forall n, n < 256 ^ w -> toNat (ofNat n) = n) :
    (word w toNat ofNat hlt hof).Exact := by
  intro bs a h
  simp only [word] at h
  split at h
  · cases h
  · next hlong =>
      cases h
      have hlen : (bs.take w).length = w := List.length_take_of_le (not_lt.mp hlong)
      refine ⟨bs.drop w, ?_⟩
      have hword : toLE w (toNat (ofNat (fromLE (bs.take w)))) = bs.take w := by
        have hfits : fromLE (bs.take w) < 256 ^ w := by
          have hbound := fromLE_lt (bs.take w)
          rwa [hlen] at hbound
        rw [hto _ hfits]
        have hback := toLE_fromLE (bs.take w)
        rwa [hlen] at hback
      simp only [word, hword]
      exact (List.take_append_drop w bs).symm

theorem exact_word64 : word64.Exact :=
  exact_word _ _ fun n hn => by
    rw [UInt64.toNat_ofNat']
    exact Nat.mod_eq_of_lt hn

theorem Exact.prod {c : FixedCodec alpha} {d : FixedCodec beta} (hc : c.Exact) (hd : d.Exact) :
    (c.prod d).Exact := by
  intro bs p h
  rcases Option.bind_eq_some_iff.mp h with ⟨a, ha, hrest⟩
  rcases Option.map_eq_some_iff.mp hrest with ⟨b, hb, rfl⟩
  rcases hc bs a ha with ⟨rest, rfl⟩
  have hdrop : (c.encode a ++ rest).drop c.size = rest := by
    rw [← c.length_encode_eq a]
    exact List.drop_left
  rw [hdrop] at hb
  rcases hd rest b hb with ⟨rest', rfl⟩
  exact ⟨rest', (List.append_assoc _ _ _).symm⟩

theorem Exact.map {c : FixedCodec alpha} (hc : c.Exact) {fwd : alpha -> beta}
    {back : beta -> alpha} (hback : forall b, fwd (back b) = b)
    (hfwd : forall a, back (fwd a) = a) : (c.map fwd back hback).Exact := by
  intro bs b h
  rcases Option.map_eq_some_iff.mp h with ⟨a, ha, rfl⟩
  rcases hc bs a ha with ⟨rest, hrest⟩
  refine ⟨rest, ?_⟩
  simp only [FixedCodec.map, hfwd]
  exact hrest

end FixedCodec

/-!
## Readers that succeed
-/

namespace Reader

variable {c c' : Cursor}

theorem bind_eq_ok {r : Reader alpha} {f : alpha -> Reader beta} {b : beta}
    (h : (r >>= f) c = .ok b c') : exists a c1, r c = .ok a c1 ∧ f a c1 = .ok b c' := by
  cases hr : r c with
  | ok a c1 =>
      rw [bind_ok hr] at h
      exact ⟨a, c1, rfl, h⟩
  | error e c1 =>
      rw [bind_error hr] at h
      cases h

theorem advance_eq_ok {n : Nat} {u : Unit} (h : advance n c = .ok u c') :
    exists bs, bs.length = n ∧ c.rest = bs ++ c'.rest := by
  unfold advance at h
  split at h
  · cases h
  · next hlong =>
      cases h
      exact ⟨c.rest.take n, List.length_take_of_le (not_lt.mp hlong),
        (List.take_append_drop n c.rest).symm⟩

theorem decodeWith_eq_ok {decode : Bytes -> Option alpha} {a : alpha}
    (h : decodeWith decode c = .ok a c') : decode c.rest = some a ∧ c' = c := by
  unfold decodeWith at h
  cases hdecode : decode c.rest with
  | none =>
      rw [hdecode] at h
      cases h
  | some a' =>
      rw [hdecode] at h
      cases h
      exact ⟨rfl, rfl⟩

theorem decode_advance_eq_ok {d : Codec alpha} (hexact : d.Exact)
    {f : alpha -> Reader beta} {b : beta}
    (h : (decodeWith d.decode >>= fun a => advance (d.bufLen a) >>= fun _ => f a) c =
      .ok b c') :
    exists a c1, c.rest = d.encode a ++ c1.rest ∧ f a c1 = .ok b c' := by
  rcases bind_eq_ok h with ⟨a, c0, hdecode, hrest⟩
  rcases bind_eq_ok hrest with ⟨_, c1, hadvance, hf⟩
  rcases decodeWith_eq_ok hdecode with ⟨hdecoded, rfl⟩
  rcases hexact _ _ hdecoded with ⟨rest, hbytes⟩
  rcases advance_eq_ok hadvance with ⟨bs, hlen, hsplit⟩
  have hsame : bs = d.encode a ∧ c1.rest = rest := by
    apply List.append_inj (hsplit.symm.trans hbytes)
    rw [hlen, d.length_encode]
  refine ⟨a, c1, ?_, hf⟩
  rw [hsplit, hsame.1]

theorem passed_eq_ok {n : Nat} {f : Unit -> Reader beta} {b : beta}
    (h : (advance n >>= f) c = .ok b c') :
    exists bs c1, bs.length = n ∧ c.rest = bs ++ c1.rest ∧ f () c1 = .ok b c' := by
  rcases bind_eq_ok h with ⟨_, c1, hadvance, hf⟩
  rcases advance_eq_ok hadvance with ⟨bs, hlen, hsplit⟩
  exact ⟨bs, c1, hlen, hsplit, hf⟩

theorem word_advance_eq_ok {w : Nat} {f : Nat -> Reader beta} {b : beta}
    (h : (word w >>= fun v => advance w >>= fun _ => f v) c = .ok b c') :
    exists bs c1, bs.length = w ∧ c.rest = bs ++ c1.rest ∧ f (fromLE bs) c1 = .ok b c' := by
  rcases bind_eq_ok h with ⟨v, c0, hword, hrest⟩
  rcases passed_eq_ok hrest with ⟨bs, c1, hlen, hsplit, hf⟩
  unfold word at hword
  split at hword
  · cases hword
  · cases hword
    refine ⟨bs, c1, hlen, hsplit, ?_⟩
    rw [hsplit, ← hlen, List.take_left] at hf
    exact hf

theorem peek_advance_eq_ok {w : Nat} {f : Nat -> Reader beta} {b : beta}
    (h : (peek w >>= fun v => advance w >>= fun _ => f v) c = .ok b c') :
    exists bs c1, bs.length = w ∧ c.rest = bs ++ c1.rest ∧ f (fromLE bs) c1 = .ok b c' := by
  rcases bind_eq_ok h with ⟨v, c0, hpeek, hrest⟩
  rcases passed_eq_ok hrest with ⟨bs, c1, hlen, hsplit, hf⟩
  cases hpeek
  refine ⟨bs, c1, hlen, hsplit, ?_⟩
  have htake : c.rest.take w = bs := by
    rw [show c.rest = bs ++ c1.rest from hsplit, ← hlen, List.take_left]
  rw [htake] at hf
  exact hf

end Reader
end Foundation
end Dmerge
