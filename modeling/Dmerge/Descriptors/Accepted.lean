import Dmerge.Descriptors.RoundTrip
import Dmerge.Foundation.ByteGrammar

/-!
# The buffers that are accepted

A buffer is decoded exactly if it is the layout of registers, VMAs with page
tables and RDMA metadata, whatever the pads of the tables hold and whatever
follows, and no entry is carried over the end of the address space.
-/

namespace Dmerge
namespace Descriptors

open Foundation Memory

variable {Regs Rdma : Type}

/-!
## Layouts
-/

structure RawTable where
  vma : VMADescriptor
  entries : CompactPageTable
  pad : Bytes
  deriving DecidableEq, Repr

namespace RawTable

def PadFits (t : RawTable) : Prop :=
  t.pad.length = if t.entries.length % 2 = 1 then 4 else 0

def encode (lib : KernelLib Regs Rdma) (t : RawTable) : Bytes :=
  lib.vma.encode t.vma ++ (toLE 8 t.entries.length ++
    (t.pad ++ t.entries.flatMap encodeEntry))

def table (t : RawTable) : VMADescriptor × CompactPageTable := (t.vma, t.entries)

end RawTable

structure RawDescriptor (Regs Rdma : Type) where
  regs : Regs
  tables : List RawTable
  machineInfo : Rdma
  /-- What follows the descriptor in the buffer. -/
  trailing : Bytes

namespace RawDescriptor

def encode (lib : KernelLib Regs Rdma) (r : RawDescriptor Regs Rdma) : Bytes :=
  lib.regs.encode r.regs ++ (toLE 8 r.tables.length ++
    (r.tables.flatMap (RawTable.encode lib) ++ (lib.rdma.encode r.machineInfo ++ r.trailing)))

def tablesOf (r : RawDescriptor Regs Rdma) : List (VMADescriptor × CompactPageTable) :=
  r.tables.map RawTable.table

structure WellFormed (r : RawDescriptor Regs Rdma) : Prop where
  pads : forall t, t ∈ r.tables -> t.PadFits
  counts : CountsFit r.tablesOf
  addresses : AddressesFit r.tablesOf

/-- The descriptor that the layout stands for. -/
def toHeapDescriptor (r : RawDescriptor Regs Rdma) : HeapDescriptor Regs Rdma :=
  (ParentDescriptor.ofTables r.regs r.tablesOf r.machineInfo).toHeapDescriptor

theorem toHeapDescriptor_eq (r : RawDescriptor Regs Rdma) :
    r.toHeapDescriptor =
      { regs := r.regs
        pageTable := insertAll ∅ (mappings (r.tables.map RawTable.table))
        vma := [] ++ r.tables.map RawTable.vma
        machineInfo := r.machineInfo } := by
  unfold toHeapDescriptor ParentDescriptor.toHeapDescriptor
  rw [ParentDescriptor.zip_ofTables]
  simp only [ParentDescriptor.ofTables, tablesOf, List.map_map, List.nil_append]
  rfl

end RawDescriptor

namespace HeapDescriptor

/-!
## A layout is accepted
-/

theorem reads_pad {pad : Bytes} {n : Nat} (hpad : pad.length = if n % 2 = 1 then 4 else 0)
    (rest : Bytes) : Reader.Reads (deserializePad n) (pad ++ rest) () rest := by
  unfold deserializePad
  by_cases hodd : n % 2 = 1
  · rw [if_pos hodd] at hpad
    rw [if_pos hodd]
    exact (Reader.reads_word hpad rest).bind (Reader.reads_advance hpad rest)
  · rw [if_neg hodd] at hpad
    rw [if_neg hodd, List.eq_nil_of_length_eq_zero hpad]
    exact Reader.reads_pure () rest

theorem reads_tables (lib : KernelLib Regs Rdma) (ts : List RawTable)
    (vmas : List VMADescriptor) (pt : RemotePageTable) (rest : Bytes)
    (hpads : forall t, t ∈ ts -> t.PadFits)
    (hcounts : forall t, t ∈ ts -> t.entries.length < 2 ^ 64)
    (haddr : AddressesFit (ts.map RawTable.table)) :
    Reader.Reads (deserializeVmas lib ts.length vmas pt)
      (ts.flatMap (RawTable.encode lib) ++ rest)
      (vmas ++ ts.map RawTable.vma, insertAll pt (mappings (ts.map RawTable.table))) rest := by
  induction ts generalizing vmas pt with
  | nil =>
      have hpure := Reader.reads_pure (vmas, pt) rest
      simpa [deserializeVmas, mappings] using hpure
  | cons t ts ih =>
      have hcount : fromLE (toLE 8 t.entries.length) = t.entries.length :=
        fromLE_toLE_of_lt (hcounts t List.mem_cons_self)
      have hrest := ih (vmas ++ [t.vma]) (insertAll pt (entryMappings t.vma.getStart t.entries))
        (fun q hq => hpads q (List.mem_cons_of_mem t hq))
        (fun q hq => hcounts q (List.mem_cons_of_mem t hq))
        (fun m hm => haddr m (List.mem_append_right _ hm))
      have hmappings : insertAll (insertAll pt (entryMappings t.vma.getStart t.entries))
          (mappings (ts.map RawTable.table)) =
            insertAll pt (mappings ((t :: ts).map RawTable.table)) := by
        rw [← insertAll_append]
        rfl
      have hvmas : vmas ++ [t.vma] ++ ts.map RawTable.vma =
          vmas ++ (t :: ts).map RawTable.vma := by
        rw [List.append_assoc]
        rfl
      rw [hmappings, hvmas] at hrest
      rw [List.flatMap_cons, RawTable.encode]
      simp only [List.append_assoc]
      refine (Reader.reads_decodeWith lib.vma t.vma _).bind ?_
      refine (Reader.reads_advance (lib.vma.length_encode t.vma) _).bind ?_
      refine (Reader.reads_word (length_toLE 8 _) _).bind ?_
      refine (Reader.reads_advance (length_toLE 8 _) _).bind ?_
      rw [hcount]
      refine (reads_pad (hpads t List.mem_cons_self) _).bind ?_
      exact (reads_deserializeEntries t.vma.getStart t.entries pt _
        (fun m hm => haddr m (List.mem_append_left _ hm))).bind hrest

theorem reads_layout (lib : KernelLib Regs Rdma) {r : RawDescriptor Regs Rdma}
    (hwf : r.WellFormed) :
    Reader.Reads (reader lib) (r.encode lib) r.toHeapDescriptor
      (lib.rdma.encode r.machineInfo ++ r.trailing) := by
  have hlen : r.tables.length < 256 ^ 8 := by
    have hcount := hwf.counts.vmas
    rwa [RawDescriptor.tablesOf, List.length_map] at hcount
  have hcounts : forall t, t ∈ r.tables -> t.entries.length < 2 ^ 64 :=
    fun t ht => hwf.counts.entries t.table (List.mem_map_of_mem ht)
  have htables := reads_tables lib r.tables [] ∅
    (lib.rdma.encode r.machineInfo ++ r.trailing) hwf.pads hcounts hwf.addresses
  rw [r.toHeapDescriptor_eq, RawDescriptor.encode]
  unfold reader
  refine (Reader.reads_decodeWith lib.regs r.regs _).bind ?_
  refine (Reader.reads_advance (lib.regs.length_encode r.regs) _).bind ?_
  refine (Reader.reads_word (length_toLE 8 _) _).bind ?_
  refine (Reader.reads_advance (length_toLE 8 _) _).bind ?_
  rw [fromLE_toLE_of_lt hlen]
  refine htables.bind ?_
  exact (Reader.reads_decodeWith lib.rdma r.machineInfo r.trailing).bind (Reader.reads_pure _ _)

/-!
## What is accepted is a layout
-/

section Accepted

variable {c c' : Cursor}

theorem entry_of_bytes {offset value : Bytes} (ho : offset.length = 4) (hv : value.length = 8) :
    exists e : PageEntry, encodeEntry e = offset ++ value ∧ e.1.toNat = fromLE offset ∧
      e.2.toNat = fromLE value := by
  have hoffset := fromLE_lt offset
  have hvalue := fromLE_lt value
  rw [ho] at hoffset
  rw [hv] at hvalue
  have h1 : (UInt32.ofNat (fromLE offset)).toNat = fromLE offset := by
    rw [UInt32.toNat_ofNat']
    exact Nat.mod_eq_of_lt hoffset
  have h2 : (UInt64.ofNat (fromLE value)).toNat = fromLE value := by
    rw [UInt64.toNat_ofNat']
    exact Nat.mod_eq_of_lt hvalue
  refine ⟨(UInt32.ofNat (fromLE offset), UInt64.ofNat (fromLE value)), ?_, h1, h2⟩
  have hoffset' := toLE_fromLE offset
  have hvalue' := toLE_fromLE value
  rw [ho] at hoffset'
  rw [hv] at hvalue'
  unfold encodeEntry
  rw [h1, h2, hoffset', hvalue']

theorem checkedAdd_eq_ok {a b v : Nat} (h : checkedAdd a b c = .ok v c') :
    a + b < 2 ^ 64 ∧ v = a + b ∧ c' = c := by
  unfold checkedAdd at h
  split at h
  · next hfits =>
      cases h
      exact ⟨hfits, rfl, rfl⟩
  · cases h

theorem entries_of_ok {vmaStart n : Nat} {pt pt' : RemotePageTable}
    (h : deserializeEntries vmaStart n pt c = .ok pt' c') :
    exists entries : CompactPageTable, entries.length = n ∧
      c.rest = entries.flatMap encodeEntry ++ c'.rest ∧
      (forall m, m ∈ entryMappings vmaStart entries -> m.1 < 2 ^ 64) ∧
      pt' = insertAll pt (entryMappings vmaStart entries) := by
  induction n generalizing pt c with
  | zero =>
      cases h
      exact ⟨[], rfl, rfl, fun m hm => (by cases hm), rfl⟩
  | succ n ih =>
      rcases Reader.peek_advance_eq_ok h with ⟨offset, c1, ho, hrest, h1⟩
      rcases Reader.peek_advance_eq_ok h1 with ⟨value, c2, hv, hrest', h2⟩
      rcases Reader.bind_eq_ok h2 with ⟨addr, c3, hadd, h3⟩
      rcases checkedAdd_eq_ok hadd with ⟨hfits, rfl, rfl⟩
      rcases ih h3 with ⟨entries, hlen, hentries, haddr, hpt⟩
      rcases entry_of_bytes ho hv with ⟨e, he, hvirt, hphy⟩
      refine ⟨e :: entries, congrArg Nat.succ hlen, ?_, ?_, ?_⟩
      · rw [List.flatMap_cons, he, hrest, hrest', hentries, List.append_assoc, List.append_assoc]
      · intro m hm
        rcases List.mem_cons.mp hm with rfl | hm
        · show e.1.toNat + vmaStart < 2 ^ 64
          rw [hvirt]
          exact hfits
        · exact haddr m hm
      · have hmappings : entryMappings vmaStart (e :: entries) =
            (fromLE offset + vmaStart, fromLE value) :: entryMappings vmaStart entries := by
          unfold entryMappings
          rw [List.map_cons, hvirt, hphy]
        rw [hpt, hmappings]
        rfl

theorem pad_of_ok {n : Nat} {u : Unit} (h : deserializePad n c = .ok u c') :
    exists pad : Bytes, pad.length = (if n % 2 = 1 then 4 else 0) ∧
      c.rest = pad ++ c'.rest := by
  unfold deserializePad at h
  by_cases hodd : n % 2 = 1
  · rw [if_pos hodd] at h ⊢
    rcases Reader.bind_eq_ok h with ⟨_, c1, hword, h⟩
    unfold Reader.word at hword
    split at hword
    · cases hword
    · cases hword
      exact Reader.advance_eq_ok h
  · rw [if_neg hodd] at h ⊢
    cases h
    exact ⟨[], rfl, rfl⟩

/-- The codecs of the kernel library accept nothing but what they write. -/
structure ExactLib (lib : KernelLib Regs Rdma) : Prop where
  regs : lib.regs.Exact
  vma : lib.vma.Exact
  rdma : lib.rdma.Exact

variable {lib : KernelLib Regs Rdma}

theorem tables_of_ok (hexact : ExactLib lib) {n : Nat} {vmas vmas' : List VMADescriptor}
    {pt pt' : RemotePageTable} (h : deserializeVmas lib n vmas pt c = .ok (vmas', pt') c') :
    exists ts : List RawTable, ts.length = n ∧
      c.rest = ts.flatMap (RawTable.encode lib) ++ c'.rest ∧
      (forall t, t ∈ ts -> t.PadFits ∧ t.entries.length < 2 ^ 64) ∧
      AddressesFit (ts.map RawTable.table) ∧ vmas' = vmas ++ ts.map RawTable.vma ∧
      pt' = insertAll pt (mappings (ts.map RawTable.table)) := by
  induction n generalizing vmas pt c with
  | zero =>
      cases h
      exact ⟨[], rfl, rfl, fun t ht => (by cases ht), fun m hm => (by cases hm),
        (List.append_nil _).symm, rfl⟩
  | succ n ih =>
      rcases Reader.decode_advance_eq_ok hexact.vma h with ⟨vma, c1, hvma, h1⟩
      rcases Reader.word_advance_eq_ok h1 with ⟨count, c2, hcount, hrest, h2⟩
      rcases Reader.bind_eq_ok h2 with ⟨_, c3, hpad, h3⟩
      rcases pad_of_ok hpad with ⟨pad, hpadLen, hpadRest⟩
      rcases Reader.bind_eq_ok h3 with ⟨pt1, c4, hentries, h4⟩
      rcases entries_of_ok hentries with ⟨entries, hlen, hentriesRest, haddr, rfl⟩
      rcases ih h4 with ⟨ts, htsLen, htsRest, hts, htsAddr, hvmas, hpt⟩
      refine ⟨{ vma := vma, entries := entries, pad := pad } :: ts, congrArg Nat.succ htsLen,
        ?_, ?_, ?_, ?_, ?_⟩
      · have hcountBytes : toLE 8 entries.length = count := by
          rw [hlen, ← hcount]
          exact toLE_fromLE count
        rw [List.flatMap_cons, RawTable.encode, hvma, hrest, hpadRest, hentriesRest, htsRest,
          hcountBytes]
        simp only [List.append_assoc]
      · intro t ht
        rcases List.mem_cons.mp ht with rfl | ht
        · refine ⟨?_, ?_⟩
          · unfold RawTable.PadFits
            rw [hlen]
            exact hpadLen
          · rw [hlen]
            have hbound := fromLE_lt count
            rwa [hcount] at hbound
        · exact hts t ht
      · intro m hm
        rcases List.mem_append.mp hm with hm | hm
        · exact haddr m hm
        · exact htsAddr m hm
      · rw [hvmas, List.append_assoc]
        rfl
      · rw [hpt, ← insertAll_append]
        rfl

end Accepted

/-- A buffer is accepted exactly if it is a well-formed layout, and then it is decoded to
what the layout stands for: every entry mapped at its offset from its VMA, the later one of
two for the same address; the pads and what follows the descriptor do not matter. -/
theorem deserialize_ok_iff (lib : KernelLib Regs Rdma) (hexact : ExactLib lib) (bytes : Bytes)
    (d : HeapDescriptor Regs Rdma) :
    deserialize lib bytes = .ok d <->
      exists r : RawDescriptor Regs Rdma,
        r.WellFormed ∧ bytes = r.encode lib ∧ d = r.toHeapDescriptor := by
  constructor
  · intro h
    unfold deserialize Reader.runOn at h
    cases hread : reader lib { rest := bytes, peeks := [] } with
    | error e c =>
        rw [hread] at h
        cases h
    | ok d' c =>
        rw [hread] at h
        cases h
        rcases Reader.decode_advance_eq_ok hexact.regs hread with ⟨regs, c1, hregs, h1⟩
        rcases Reader.word_advance_eq_ok h1 with ⟨count, c2, hcount, hrest, h2⟩
        rcases Reader.bind_eq_ok h2 with ⟨⟨vmas, pt⟩, c3, htables, h3⟩
        rcases Reader.bind_eq_ok h3 with ⟨machineInfo, c4, hrdma, h4⟩
        rcases Reader.decodeWith_eq_ok hrdma with ⟨hdecoded, hc4⟩
        rcases hexact.rdma _ _ hdecoded with ⟨trailing, htrailing⟩
        rcases tables_of_ok hexact htables with ⟨ts, hlen, htsRest, hts, haddr, hvmas, hpt⟩
        cases h4
        have hbound : fromLE count < 2 ^ 64 := by
          have hlt := fromLE_lt count
          rwa [hcount] at hlt
        have hcountBytes : toLE 8 ts.length = count := by
          rw [hlen, ← hcount]
          exact toLE_fromLE count
        refine ⟨{ regs := regs, tables := ts, machineInfo := machineInfo, trailing := trailing },
          ⟨fun t ht => (hts t ht).1, ⟨?_, ?_⟩, haddr⟩, ?_, ?_⟩
        · show (ts.map RawTable.table).length < 2 ^ 64
          rw [List.length_map, hlen]
          exact hbound
        · intro q hq
          rcases List.mem_map.mp hq with ⟨t, ht, rfl⟩
          exact (hts t ht).2
        · show bytes = _
          rw [RawDescriptor.encode, hcountBytes, ← htrailing, ← htsRest, ← hrest]
          exact hregs
        · rw [RawDescriptor.toHeapDescriptor_eq, hvmas, hpt]
  · intro h
    rcases h with ⟨r, hwf, rfl, rfl⟩
    exact (reads_layout lib hwf).runOn

theorem exact_plainLib : ExactLib plainLib where
  regs := FixedCodec.exact_word64
  vma := FixedCodec.Exact.map
    (FixedCodec.Exact.prod FixedCodec.exact_word64
      (FixedCodec.Exact.prod FixedCodec.exact_word64 FixedCodec.exact_word64))
    (fun _ => rfl) (fun _ => rfl)
  rdma := FixedCodec.exact_word64

def smallRaw : RawDescriptor UInt64 UInt64 where
  regs := 5
  tables :=
    [{ vma := { vmStart := 4096, vmEnd := 12288, flags := 0 }
       entries := [(8192, 28672)]
       pad := [9, 9, 9, 9] },
      { vma := { vmStart := 12288, vmEnd := 20480, flags := 0 }
        entries := [(0, 32768), (4096, 28672)]
        pad := [] }]
  machineInfo := 6
  trailing := [1, 2, 3]

theorem smallRaw_wellFormed : smallRaw.WellFormed where
  pads := by
    intro t ht
    rcases List.mem_cons.mp ht with rfl | ht
    · rfl
    · rcases List.mem_singleton.mp ht with rfl
      rfl
  counts := by
    refine ⟨by decide, ?_⟩
    intro q hq
    rcases List.mem_map.mp hq with ⟨t, ht, rfl⟩
    rcases List.mem_cons.mp ht with rfl | ht
    · decide
    · rcases List.mem_singleton.mp ht with rfl
      decide
  addresses := by
    unfold AddressesFit
    decide

theorem deserialize_ok_iff_small :
    deserialize plainLib (smallRaw.encode plainLib) = .ok smallRaw.toHeapDescriptor :=
  (deserialize_ok_iff plainLib exact_plainLib _ _).mpr ⟨smallRaw, smallRaw_wellFormed, rfl, rfl⟩

end HeapDescriptor
end Descriptors
end Dmerge
