import Dmerge.Descriptors.Wire

/-!
# Reads of a descriptor

The entries of a page table are read before the cursor is moved, and only the move
checks that they are there.  A buffer that ends inside a page table is read past its
end; every other buffer is not, however it is cut or filled.
-/

namespace Dmerge
namespace Descriptors

open Foundation Memory

variable {Regs Rdma : Type}

/-!
## Page tables that are there
-/

def entrySize : Nat := 12

/-- One of the first entries that are there whole does not fit a word when it is added
to the start of the VMA; the decoding aborts at it. -/
def Overflows (vmaStart : Nat) : Nat -> Bytes -> Prop
  | 0, _ => False
  | n + 1, bs =>
      entrySize ≤ bs.length ∧
        (2 ^ 64 ≤ fromLE (bs.take 4) + vmaStart ∨ Overflows vmaStart n (bs.drop entrySize))

/-- The VMA at the head of some bytes, the number of entries that its page table claims,
and the bytes from the first entry on. -/
def tableHead (lib : KernelLib Regs Rdma) (bs : Bytes) :
    Option (VMADescriptor × Nat × Bytes) :=
  match lib.vma.decode bs with
  | none => none
  | some vma =>
      let counted := bs.drop (lib.vma.bufLen vma)
      let pageNum := fromLE (counted.take 8)
      let padded := counted.drop 8
      if bs.length < lib.vma.bufLen vma ∨ counted.length < 8 then none
      else if pageNum % 2 = 1 then
        if padded.length < 4 then none else some (vma, pageNum, padded.drop 4)
      else some (vma, pageNum, padded)

/-- Every page table that is reached has all the entries that it claims, unless the
decoding aborts at one that is there. -/
def HoldsTables (lib : KernelLib Regs Rdma) : Nat -> Bytes -> Prop
  | 0, _ => True
  | count + 1, bs =>
      match tableHead lib bs with
      | none => True
      | some (vma, pageNum, table) =>
          Overflows vma.getStart pageNum table ∨
            (entrySize * pageNum ≤ table.length ∧
              HoldsTables lib count (table.drop (entrySize * pageNum)))

/-- The page tables of a buffer are there. -/
def TablesThere (lib : KernelLib Regs Rdma) (bytes : Bytes) : Prop :=
  match lib.regs.decode bytes with
  | none => True
  | some regs =>
      let counted := bytes.drop (lib.regs.bufLen regs)
      bytes.length < lib.regs.bufLen regs ∨ counted.length < 8 ∨
        HoldsTables lib (fromLE (counted.take 8)) (counted.drop 8)

/-- No unchecked read of the decoding leaves the buffer. -/
def ReadsInside (lib : KernelLib Regs Rdma) (bytes : Bytes) : Prop :=
  forall p, p ∈ ((HeapDescriptor.reader lib).runOn bytes).2 -> p.width ≤ p.remaining

/-!
## One entry
-/

namespace HeapDescriptor

variable (vmaStart : Nat) (pt : RemotePageTable) {rest : Bytes} (peeks : List Peek)

def entryPeeks (remaining : Nat) : List Peek := [⟨4, remaining⟩, ⟨8, remaining - 4⟩]

theorem entries_whole (n : Nat) (h : entrySize ≤ rest.length) :
    deserializeEntries vmaStart (n + 1) pt { rest, peeks } =
      (checkedAdd (fromLE (rest.take 4)) vmaStart >>= fun addr =>
        deserializeEntries vmaStart n
          (RemotePageTable.map pt addr (fromLE ((rest.drop 4).take 8))))
        { rest := rest.drop entrySize, peeks := peeks ++ entryPeeks rest.length } := by
  unfold entrySize at h
  have hoffset : Reader.peek 4 { rest, peeks } =
      .ok (fromLE (rest.take 4)) { rest, peeks := peeks ++ [⟨4, rest.length⟩] } := rfl
  have hadvance : Reader.advance 4 { rest, peeks := peeks ++ [⟨4, rest.length⟩] } =
      .ok () { rest := rest.drop 4, peeks := peeks ++ [⟨4, rest.length⟩] } :=
    if_neg (by simp only; omega)
  have hvalue : Reader.peek 8 { rest := rest.drop 4, peeks := peeks ++ [⟨4, rest.length⟩] } =
      .ok (fromLE ((rest.drop 4).take 8))
        { rest := rest.drop 4, peeks := peeks ++ entryPeeks rest.length } := by
    unfold Reader.peek entryPeeks
    simp
  have hadvance' : Reader.advance 8
        { rest := rest.drop 4, peeks := peeks ++ entryPeeks rest.length } =
      .ok () { rest := rest.drop entrySize, peeks := peeks ++ entryPeeks rest.length } := by
    unfold Reader.advance entrySize
    rw [if_neg (by simp only [List.length_drop]; omega), List.drop_drop]
  rw [deserializeEntries, Reader.bind_ok hoffset, Reader.bind_ok hadvance, Reader.bind_ok hvalue,
    Reader.bind_ok hadvance']

theorem entries_short (n : Nat) (h : rest.length < entrySize) :
    exists c,
      deserializeEntries vmaStart (n + 1) pt { rest, peeks } = .error .reject c ∧
        ¬ c.Inside := by
  unfold entrySize at h
  have hoffset : Reader.peek 4 { rest, peeks } =
      .ok (fromLE (rest.take 4)) { rest, peeks := peeks ++ [⟨4, rest.length⟩] } := rfl
  rw [deserializeEntries, Reader.bind_ok hoffset]
  by_cases hshort : rest.length < 4
  · have hadvance : Reader.advance 4 { rest, peeks := peeks ++ [⟨4, rest.length⟩] } =
        .error .reject { rest, peeks := peeks ++ [⟨4, rest.length⟩] } := if_pos hshort
    refine ⟨_, Reader.bind_error hadvance _, ?_⟩
    intro hinside
    have hle := hinside ⟨4, rest.length⟩ (List.mem_append_right peeks List.mem_cons_self)
    simp only at hle
    omega
  · have hadvance : Reader.advance 4 { rest, peeks := peeks ++ [⟨4, rest.length⟩] } =
        .ok () { rest := rest.drop 4, peeks := peeks ++ [⟨4, rest.length⟩] } := if_neg hshort
    have hvalue : Reader.peek 8 { rest := rest.drop 4, peeks := peeks ++ [⟨4, rest.length⟩] } =
        .ok (fromLE ((rest.drop 4).take 8))
          { rest := rest.drop 4, peeks := peeks ++ entryPeeks rest.length } := by
      unfold Reader.peek entryPeeks
      simp
    have hadvance' : Reader.advance 8
          { rest := rest.drop 4, peeks := peeks ++ entryPeeks rest.length } =
        .error .reject { rest := rest.drop 4, peeks := peeks ++ entryPeeks rest.length } :=
      if_pos (by simp only [List.length_drop]; omega)
    rw [Reader.bind_ok hadvance, Reader.bind_ok hvalue]
    refine ⟨_, Reader.bind_error hadvance' _, ?_⟩
    intro hinside
    have hmem : (⟨8, rest.length - 4⟩ : Peek) ∈ peeks ++ entryPeeks rest.length :=
      List.mem_append_right peeks (by simp [entryPeeks])
    have hle := hinside _ hmem
    simp only at hle
    omega

theorem inside_entryPeeks (h : entrySize ≤ rest.length) (rest' : Bytes) :
    Cursor.Inside { rest := rest', peeks := peeks ++ entryPeeks rest.length } <->
      forall p, p ∈ peeks -> p.width ≤ p.remaining := by
  unfold entrySize at h
  constructor
  · intro hinside p hp
    exact hinside p (List.mem_append_left _ hp)
  · intro hinside p hp
    rcases List.mem_append.mp hp with hp | hp
    · exact hinside p hp
    · simp only [entryPeeks, List.mem_cons, List.not_mem_nil, or_false] at hp
      rcases hp with rfl | rfl
      · simp only
        omega
      · simp only
        omega

/-!
## The entries of a page table
-/

theorem checkedAdd_ok {a b : Nat} (h : ¬ 2 ^ 64 ≤ a + b) : checkedAdd a b = pure (a + b) :=
  if_pos (Nat.not_le.mp h)

theorem checkedAdd_abort {a b : Nat} (h : 2 ^ 64 ≤ a + b) : checkedAdd a b = Reader.abort :=
  if_neg (Nat.not_lt.mpr h)

theorem entries_held {n : Nat} (hthere : entrySize * n ≤ rest.length)
    (hfits : ¬ Overflows vmaStart n rest) :
    exists pt' peeks',
      deserializeEntries vmaStart n pt { rest, peeks } =
          .ok pt' { rest := rest.drop (entrySize * n), peeks := peeks' } ∧
        ((forall p, p ∈ peeks' -> p.width ≤ p.remaining) <->
          forall p, p ∈ peeks -> p.width ≤ p.remaining) := by
  induction n generalizing rest pt peeks with
  | zero => exact ⟨pt, peeks, rfl, Iff.rfl⟩
  | succ n ih =>
      rw [Nat.mul_succ] at hthere
      have hwhole : entrySize ≤ rest.length := by omega
      have hoffset : ¬ 2 ^ 64 ≤ fromLE (rest.take 4) + vmaStart :=
        fun hover => hfits ⟨hwhole, Or.inl hover⟩
      have hrest : ¬ Overflows vmaStart n (rest.drop entrySize) :=
        fun hover => hfits ⟨hwhole, Or.inr hover⟩
      have hleft : entrySize * n ≤ (rest.drop entrySize).length := by
        rw [List.length_drop]
        omega
      rcases ih (RemotePageTable.map pt (fromLE (rest.take 4) + vmaStart)
        (fromLE ((rest.drop 4).take 8))) (peeks ++ entryPeeks rest.length) hleft hrest with
        ⟨pt', peeks', hread, hinside⟩
      refine ⟨pt', peeks', ?_, ?_⟩
      · rw [entries_whole vmaStart pt peeks n hwhole, checkedAdd_ok hoffset, pure_bind, hread,
          List.drop_drop, Nat.mul_succ, Nat.add_comm]
      · rw [hinside]
        exact inside_entryPeeks peeks hwhole rest

theorem entries_overflow {n : Nat} (hover : Overflows vmaStart n rest) :
    exists c,
      deserializeEntries vmaStart n pt { rest, peeks } = .error .abort c ∧
        (c.Inside <-> forall p, p ∈ peeks -> p.width ≤ p.remaining) := by
  induction n generalizing rest pt peeks with
  | zero => exact hover.elim
  | succ n ih =>
      rcases hover with ⟨hwhole, hover⟩
      by_cases hoffset : 2 ^ 64 ≤ fromLE (rest.take 4) + vmaStart
      · refine ⟨_, ?_, inside_entryPeeks peeks hwhole (rest.drop entrySize)⟩
        rw [entries_whole vmaStart pt peeks n hwhole, checkedAdd_abort hoffset]
        rfl
      · have hrest := hover.resolve_left hoffset
        rcases ih (RemotePageTable.map pt (fromLE (rest.take 4) + vmaStart)
          (fromLE ((rest.drop 4).take 8))) (peeks ++ entryPeeks rest.length) hrest with
          ⟨c, hread, hinside⟩
        refine ⟨c, ?_, ?_⟩
        · rw [entries_whole vmaStart pt peeks n hwhole, checkedAdd_ok hoffset, pure_bind, hread]
        · rw [hinside]
          exact inside_entryPeeks peeks hwhole rest

theorem entries_cut {n : Nat} (hfits : ¬ Overflows vmaStart n rest)
    (hcut : rest.length < entrySize * n) :
    exists c,
      deserializeEntries vmaStart n pt { rest, peeks } = .error .reject c ∧ ¬ c.Inside := by
  induction n generalizing rest pt peeks with
  | zero => exact absurd hcut (Nat.not_lt_zero _)
  | succ n ih =>
      by_cases hwhole : entrySize ≤ rest.length
      · have hoffset : ¬ 2 ^ 64 ≤ fromLE (rest.take 4) + vmaStart :=
          fun hover => hfits ⟨hwhole, Or.inl hover⟩
        have hrest : ¬ Overflows vmaStart n (rest.drop entrySize) :=
          fun hover => hfits ⟨hwhole, Or.inr hover⟩
        have hleft : (rest.drop entrySize).length < entrySize * n := by
          rw [Nat.mul_succ] at hcut
          rw [List.length_drop]
          omega
        rcases ih (RemotePageTable.map pt (fromLE (rest.take 4) + vmaStart)
          (fromLE ((rest.drop 4).take 8))) (peeks ++ entryPeeks rest.length) hrest hleft with
          ⟨c, hread, hinside⟩
        refine ⟨c, ?_, hinside⟩
        rw [entries_whole vmaStart pt peeks n hwhole, checkedAdd_ok hoffset, pure_bind, hread]
      · exact entries_short vmaStart pt peeks n (Nat.not_le.mp hwhole)

/-!
## The loop over the VMAs
-/

section Vmas

variable {lib : KernelLib Regs Rdma} (count : Nat) (vmas : List VMADescriptor)

theorem deserializePad_short {pageNum : Nat} (hodd : pageNum % 2 = 1) (h : rest.length < 4) :
    deserializePad pageNum { rest, peeks } = .error .reject { rest, peeks } := by
  have hword : Reader.word 4 { rest, peeks } = .error .reject { rest, peeks } := if_pos h
  unfold deserializePad
  rw [if_pos hodd]
  exact Reader.bind_error hword _

theorem deserializePad_odd {pageNum : Nat} (hodd : pageNum % 2 = 1) (h : ¬ rest.length < 4) :
    deserializePad pageNum { rest, peeks } = .ok () { rest := rest.drop 4, peeks } := by
  have hword : Reader.word 4 { rest, peeks } = .ok (fromLE (rest.take 4)) { rest, peeks } :=
    if_neg h
  unfold deserializePad
  rw [if_pos hodd, Reader.bind_ok hword]
  exact if_neg h

theorem deserializePad_even {pageNum : Nat} (heven : ¬ pageNum % 2 = 1) :
    deserializePad pageNum { rest, peeks } = .ok () { rest, peeks } := by
  unfold deserializePad
  rw [if_neg heven]
  rfl

theorem deserializeVmas_reject (h : tableHead lib rest = none) :
    ((deserializeVmas lib (count + 1) vmas pt).finish { rest, peeks }).peeks = peeks := by
  rw [deserializeVmas]
  unfold tableHead at h
  cases hvma : lib.vma.decode rest with
  | none =>
      have hdecode : Reader.decodeWith lib.vma.decode { rest, peeks } =
          .error .reject { rest, peeks } := by
        unfold Reader.decodeWith
        simp only [hvma]
      rw [Reader.finish_bind_error hdecode]
  | some vma =>
      have hdecode : Reader.decodeWith lib.vma.decode { rest, peeks } =
          .ok vma { rest, peeks } := by
        unfold Reader.decodeWith
        simp only [hvma]
      rw [Reader.finish_bind_ok hdecode]
      simp only [hvma] at h
      by_cases hvmaShort : rest.length < lib.vma.bufLen vma
      · have hadvance : Reader.advance (lib.vma.bufLen vma) { rest, peeks } =
            .error .reject { rest, peeks } := if_pos hvmaShort
        rw [Reader.finish_bind_error hadvance]
      · have hadvance : Reader.advance (lib.vma.bufLen vma) { rest, peeks } =
            .ok () { rest := rest.drop (lib.vma.bufLen vma), peeks } := if_neg hvmaShort
        rw [Reader.finish_bind_ok hadvance]
        by_cases hcountShort : (rest.drop (lib.vma.bufLen vma)).length < 8
        · have hword : Reader.word 8 { rest := rest.drop (lib.vma.bufLen vma), peeks } =
              .error .reject { rest := rest.drop (lib.vma.bufLen vma), peeks } :=
            if_pos hcountShort
          rw [Reader.finish_bind_error hword]
        · have hword : Reader.word 8 { rest := rest.drop (lib.vma.bufLen vma), peeks } =
              .ok (fromLE ((rest.drop (lib.vma.bufLen vma)).take 8))
                { rest := rest.drop (lib.vma.bufLen vma), peeks } := if_neg hcountShort
          have hadvance' : Reader.advance 8 { rest := rest.drop (lib.vma.bufLen vma), peeks } =
              .ok () { rest := (rest.drop (lib.vma.bufLen vma)).drop 8, peeks } :=
            if_neg hcountShort
          rw [if_neg (not_or.mpr ⟨hvmaShort, hcountShort⟩)] at h
          rw [Reader.finish_bind_ok hword, Reader.finish_bind_ok hadvance']
          by_cases hodd : fromLE ((rest.drop (lib.vma.bufLen vma)).take 8) % 2 = 1
          · rw [if_pos hodd] at h
            have hpadShort : ((rest.drop (lib.vma.bufLen vma)).drop 8).length < 4 := by
              by_contra hlong
              rw [if_neg hlong] at h
              cases h
            rw [Reader.finish_bind_error (deserializePad_short peeks hodd hpadShort)]
          · rw [if_neg hodd] at h
            cases h

theorem deserializeVmas_head {vma : VMADescriptor} {pageNum : Nat} {table : Bytes}
    (h : tableHead lib rest = some (vma, pageNum, table)) :
    deserializeVmas lib (count + 1) vmas pt { rest, peeks } =
      (deserializeEntries vma.getStart pageNum pt >>= fun pt =>
        deserializeVmas lib count (vmas ++ [vma]) pt) { rest := table, peeks } := by
  rw [deserializeVmas]
  unfold tableHead at h
  cases hvma : lib.vma.decode rest with
  | none =>
      simp only [hvma] at h
      cases h
  | some vma' =>
      simp only [hvma] at h
      by_cases hshort : rest.length < lib.vma.bufLen vma' ∨
          (rest.drop (lib.vma.bufLen vma')).length < 8
      · rw [if_pos hshort] at h
        cases h
      · rw [if_neg hshort] at h
        rcases not_or.mp hshort with ⟨hvmaLong, hcountLong⟩
        have hdecode : Reader.decodeWith lib.vma.decode { rest, peeks } =
            .ok vma' { rest, peeks } := by
          unfold Reader.decodeWith
          simp only [hvma]
        have hadvance : Reader.advance (lib.vma.bufLen vma') { rest, peeks } =
            .ok () { rest := rest.drop (lib.vma.bufLen vma'), peeks } := if_neg hvmaLong
        have hword : Reader.word 8 { rest := rest.drop (lib.vma.bufLen vma'), peeks } =
            .ok (fromLE ((rest.drop (lib.vma.bufLen vma')).take 8))
              { rest := rest.drop (lib.vma.bufLen vma'), peeks } := if_neg hcountLong
        have hadvance' : Reader.advance 8 { rest := rest.drop (lib.vma.bufLen vma'), peeks } =
            .ok () { rest := (rest.drop (lib.vma.bufLen vma')).drop 8, peeks } :=
          if_neg hcountLong
        rw [Reader.bind_ok hdecode, Reader.bind_ok hadvance, Reader.bind_ok hword,
          Reader.bind_ok hadvance']
        by_cases hodd : fromLE ((rest.drop (lib.vma.bufLen vma')).take 8) % 2 = 1
        · rw [if_pos hodd] at h
          by_cases hpadShort : ((rest.drop (lib.vma.bufLen vma')).drop 8).length < 4
          · rw [if_pos hpadShort] at h
            cases h
          · rw [if_neg hpadShort] at h
            cases h
            rw [Reader.bind_ok (deserializePad_odd peeks hodd hpadShort)]
        · rw [if_neg hodd] at h
          cases h
          rw [Reader.bind_ok (deserializePad_even peeks hodd)]

theorem inside_deserializeVmas :
    (forall p, p ∈ ((deserializeVmas lib count vmas pt).finish { rest, peeks }).peeks ->
        p.width ≤ p.remaining) <->
      (forall p, p ∈ peeks -> p.width ≤ p.remaining) ∧ HoldsTables lib count rest := by
  induction count generalizing vmas pt rest peeks with
  | zero => exact ⟨fun h => ⟨h, True.intro⟩, fun h => h.1⟩
  | succ count ih =>
      unfold HoldsTables
      cases hhead : tableHead lib rest with
      | none =>
          rw [deserializeVmas_reject pt peeks count vmas hhead]
          exact ⟨fun h => ⟨h, True.intro⟩, fun h => h.1⟩
      | some head =>
          rcases head with ⟨vma, pageNum, table⟩
          have hfinish : (deserializeVmas lib (count + 1) vmas pt).finish { rest, peeks } =
              (deserializeEntries vma.getStart pageNum pt >>= fun pt =>
                deserializeVmas lib count (vmas ++ [vma]) pt).finish { rest := table, peeks } := by
            unfold Reader.finish
            rw [deserializeVmas_head pt peeks count vmas hhead]
          rw [hfinish]
          simp only
          by_cases hover : Overflows vma.getStart pageNum table
          · rcases entries_overflow vma.getStart pt peeks hover with ⟨c, hread, hinside⟩
            rw [Reader.finish_bind_error hread]
            exact ⟨fun h => ⟨hinside.mp h, Or.inl hover⟩, fun h => hinside.mpr h.1⟩
          · by_cases hthere : entrySize * pageNum ≤ table.length
            · rcases entries_held vma.getStart pt peeks hthere hover with
                ⟨pt', peeks', hread, hinside⟩
              rw [Reader.finish_bind_ok hread, ih, hinside]
              constructor
              · exact fun h => ⟨h.1, Or.inr ⟨hthere, h.2⟩⟩
              · exact fun h => ⟨h.1, (h.2.resolve_left hover).2⟩
            · rcases entries_cut vma.getStart pt peeks hover (Nat.not_le.mp hthere) with
                ⟨c, hread, houtside⟩
              rw [Reader.finish_bind_error hread]
              constructor
              · exact fun h => absurd h houtside
              · exact fun h => absurd (h.2.resolve_left hover).1 hthere

end Vmas

/-!
## The whole descriptor
-/

theorem finish_decodeWith {alpha beta : Type} (decode : Bytes -> Option alpha)
    (f : alpha -> beta) (c : Cursor) :
    ((Reader.decodeWith decode >>= fun a => pure (f a)).finish c).peeks = c.peeks := by
  cases hdecode : decode c.rest with
  | none =>
      have hread : Reader.decodeWith decode c = .error .reject c := by
        unfold Reader.decodeWith
        rw [hdecode]
      rw [Reader.finish_bind_error hread]
  | some a =>
      have hread : Reader.decodeWith decode c = .ok a c := by
        unfold Reader.decodeWith
        rw [hdecode]
      rw [Reader.finish_bind_ok hread]
      rfl

end HeapDescriptor

/-- A descriptor of one VMA whose page table claims two entries and has none: the buffer
ends where the entries start. -/
def cutDescriptor : Bytes :=
  toLE 8 0 ++ toLE 8 1 ++ (toLE 8 4096 ++ toLE 8 12288 ++ toLE 8 0) ++ toLE 8 2

end Descriptors
end Dmerge
