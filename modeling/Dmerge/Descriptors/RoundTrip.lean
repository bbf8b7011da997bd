import Dmerge.Descriptors.Wire
import Dmerge.Foundation.FiniteMap

/-!
# What the consumer decodes

Decoding an encoded parent descriptor yields the heap descriptor that merges
its page tables: every entry is mapped at its offset from the start of its VMA.
The proof follows the format with `Reads` facts, one for each loop.
-/

namespace Dmerge
namespace Descriptors

open Foundation Memory

variable {Regs Rdma : Type}

def entryMappings (vmaStart : Nat) (pt : CompactPageTable) : List (Nat × Nat) :=
  pt.map fun e => (e.1.toNat + vmaStart, e.2.toNat)

/-- The mappings of all tables, in the order in which they are decoded. -/
def mappings (ps : List (VMADescriptor × CompactPageTable)) : List (Nat × Nat) :=
  ps.flatMap fun p => entryMappings p.1.getStart p.2

/-- Every mapped address fits in a machine word. -/
def AddressesFit (ps : List (VMADescriptor × CompactPageTable)) : Prop :=
  forall m, m ∈ mappings ps -> m.1 < 2 ^ 64

structure CountsFit (ps : List (VMADescriptor × CompactPageTable)) : Prop where
  vmas : ps.length < 2 ^ 64
  entries : forall p, p ∈ ps -> p.2.length < 2 ^ 64

namespace ParentDescriptor

/-- A descriptor with one page table for each VMA, all of a size that can be
written down. -/
structure WellFormed (d : ParentDescriptor Regs Rdma) : Prop where
  aligned : d.pageTable.length = d.vma.length
  counts : CountsFit (d.vma.zip d.pageTable)
  addresses : AddressesFit (d.vma.zip d.pageTable)

def toHeapDescriptor (d : ParentDescriptor Regs Rdma) : HeapDescriptor Regs Rdma where
  regs := d.regs
  pageTable := insertAll ∅ (mappings (d.vma.zip d.pageTable))
  vma := d.vma
  machineInfo := d.machineInfo

end ParentDescriptor

/-!
## The two loops
-/

theorem reads_checkedAdd {a b : Nat} (h : a + b < 2 ^ 64) (rest : Bytes) :
    Reader.Reads (checkedAdd a b) rest (a + b) rest := by
  unfold checkedAdd
  rw [if_pos h]
  exact Reader.reads_pure (a + b) rest

theorem fromLE_offset (e : PageEntry) : fromLE (toLE 4 e.1.toNat) = e.1.toNat :=
  fromLE_toLE_of_lt e.1.toNat_lt

theorem fromLE_value (e : PageEntry) : fromLE (toLE 8 e.2.toNat) = e.2.toNat :=
  fromLE_toLE_of_lt e.2.toNat_lt

namespace HeapDescriptor

theorem reads_deserializeEntries (vmaStart : Nat) (entries : CompactPageTable)
    (pt : RemotePageTable) (rest : Bytes)
    (hfit : forall m, m ∈ entryMappings vmaStart entries -> m.1 < 2 ^ 64) :
    Reader.Reads (deserializeEntries vmaStart entries.length pt)
      (entries.flatMap encodeEntry ++ rest)
      (insertAll pt (entryMappings vmaStart entries)) rest := by
  induction entries generalizing pt with
  | nil => exact Reader.reads_pure pt rest
  | cons e es ih =>
      have haddr : e.1.toNat + vmaStart < 2 ^ 64 :=
        hfit (e.1.toNat + vmaStart, e.2.toNat) List.mem_cons_self
      have hrest := ih (RemotePageTable.map pt (e.1.toNat + vmaStart) e.2.toNat)
        (fun m hm => hfit m (List.mem_cons_of_mem _ hm))
      rw [List.flatMap_cons, encodeEntry]
      simp only [List.append_assoc]
      refine (Reader.reads_peek (length_toLE 4 _) _).bind ?_
      refine (Reader.reads_advance (length_toLE 4 _) _).bind ?_
      refine (Reader.reads_peek (length_toLE 8 _) _).bind ?_
      refine (Reader.reads_advance (length_toLE 8 _) _).bind ?_
      rw [fromLE_offset, fromLE_value]
      exact (reads_checkedAdd haddr _).bind hrest

theorem reads_deserializePad (n : Nat) (rest : Bytes) :
    Reader.Reads (deserializePad n)
      ((if n % 2 = 1 then toLE 4 0 else []) ++ rest) () rest := by
  unfold deserializePad
  by_cases hodd : n % 2 = 1
  · rw [if_pos hodd, if_pos hodd]
    exact (Reader.reads_word (length_toLE 4 0) rest).bind
      (Reader.reads_advance (length_toLE 4 0) rest)
  · rw [if_neg hodd, if_neg hodd]
    exact Reader.reads_pure () rest

theorem reads_deserializeVmas (lib : KernelLib Regs Rdma)
    (ps : List (VMADescriptor × CompactPageTable)) (vmas : List VMADescriptor)
    (pt : RemotePageTable) (rest : Bytes)
    (hcounts : forall p, p ∈ ps -> p.2.length < 2 ^ 64) (haddr : AddressesFit ps) :
    Reader.Reads (deserializeVmas lib ps.length vmas pt)
      (ps.flatMap (encodeVma lib) ++ rest)
      (vmas ++ ps.map Prod.fst, insertAll pt (mappings ps)) rest := by
  induction ps generalizing vmas pt with
  | nil =>
      have hpure := Reader.reads_pure (vmas, pt) rest
      simpa [deserializeVmas, mappings] using hpure
  | cons p ps ih =>
      have hcount : fromLE (toLE 8 p.2.length) = p.2.length :=
        fromLE_toLE_of_lt (hcounts p List.mem_cons_self)
      have hrest := ih (vmas ++ [p.1]) (insertAll pt (entryMappings p.1.getStart p.2))
        (fun q hq => hcounts q (List.mem_cons_of_mem p hq))
        (fun m hm => haddr m (List.mem_append_right _ hm))
      have hmappings : insertAll (insertAll pt (entryMappings p.1.getStart p.2))
          (mappings ps) = insertAll pt (mappings (p :: ps)) := by
        rw [← insertAll_append]
        rfl
      have hvmas : vmas ++ [p.1] ++ ps.map Prod.fst =
          vmas ++ (p :: ps).map Prod.fst := by simp
      rw [hmappings, hvmas] at hrest
      rw [List.flatMap_cons, encodeVma, encodePageTable]
      simp only [List.append_assoc]
      refine (Reader.reads_decodeWith lib.vma p.1 _).bind ?_
      refine (Reader.reads_advance (lib.vma.length_encode p.1) _).bind ?_
      refine (Reader.reads_word (length_toLE 8 _) _).bind ?_
      refine (Reader.reads_advance (length_toLE 8 _) _).bind ?_
      rw [hcount]
      refine (reads_deserializePad p.2.length _).bind ?_
      exact (reads_deserializeEntries p.1.getStart p.2 pt _
        (fun m hm => haddr m (List.mem_append_left _ hm))).bind hrest

theorem reads_reader (lib : KernelLib Regs Rdma) {d : ParentDescriptor Regs Rdma}
    (hwf : d.WellFormed) (rest : Bytes) :
    Reader.Reads (reader lib) (d.encode lib ++ rest) d.toHeapDescriptor
      (lib.rdma.encode d.machineInfo ++ rest) := by
  have hlen : (d.vma.zip d.pageTable).length = d.vma.length := by
    simp [List.length_zip, hwf.aligned]
  have hfst : (d.vma.zip d.pageTable).map Prod.fst = d.vma :=
    List.map_fst_zip (le_of_eq hwf.aligned.symm)
  have hcount : fromLE (toLE 8 d.vma.length) = (d.vma.zip d.pageTable).length := by
    rw [← hlen]
    exact fromLE_toLE_of_lt hwf.counts.vmas
  have hvmas := reads_deserializeVmas lib (d.vma.zip d.pageTable) [] ∅
    (lib.rdma.encode d.machineInfo ++ rest) hwf.counts.entries hwf.addresses
  rw [List.nil_append, hfst] at hvmas
  rw [ParentDescriptor.encode]
  simp only [List.append_assoc]
  unfold reader
  refine (Reader.reads_decodeWith lib.regs d.regs _).bind ?_
  refine (Reader.reads_advance (lib.regs.length_encode d.regs) _).bind ?_
  refine (Reader.reads_word (length_toLE 8 _) _).bind ?_
  refine (Reader.reads_advance (length_toLE 8 _) _).bind ?_
  rw [hcount]
  refine hvmas.bind ?_
  exact (Reader.reads_decodeWith lib.rdma d.machineInfo rest).bind (Reader.reads_pure _ _)

end HeapDescriptor

theorem deserialize_encode (lib : KernelLib Regs Rdma) {d : ParentDescriptor Regs Rdma}
    (hwf : d.WellFormed) (rest : Bytes) :
    HeapDescriptor.deserialize lib (d.encode lib ++ rest) = .ok d.toHeapDescriptor :=
  (HeapDescriptor.reads_reader lib hwf rest).runOn

/-!
## Tables with distinct addresses

A table is given with its VMA.  When no two entries stand for the same address,
the count of a table always fits in a word, and the merged page table answers
exactly the entries.
-/

/-- The descriptor of a list of VMAs, each with its table. -/
def ParentDescriptor.ofTables (regs : Regs) (tables : List (VMADescriptor × CompactPageTable))
    (machineInfo : Rdma) : ParentDescriptor Regs Rdma where
  regs := regs
  pageTable := tables.map Prod.snd
  vma := tables.map Prod.fst
  machineInfo := machineInfo

/-- No two entries, of one table or of two, stand for the same address. -/
def AddressesDistinct (tables : List (VMADescriptor × CompactPageTable)) : Prop :=
  ((mappings tables).map Prod.fst).Nodup

section Tables

variable {tables : List (VMADescriptor × CompactPageTable)}

theorem ParentDescriptor.zip_ofTables (regs : Regs) (machineInfo : Rdma) :
    (ofTables regs tables machineInfo).vma.zip (ofTables regs tables machineInfo).pageTable =
      tables :=
  (List.zip_of_prod rfl rfl).symm

theorem length_le_of_nodup_lt {xs : List Nat} {n : Nat} (hnodup : xs.Nodup)
    (hlt : forall x, x ∈ xs -> x < n) : xs.length ≤ n := by
  have hsub : xs ⊆ List.range n := fun x hx => List.mem_range.mpr (hlt x hx)
  have hlen := hnodup.length_le_of_subset hsub
  rwa [List.length_range] at hlen

theorem AddressesDistinct.length_lt (hdistinct : AddressesDistinct tables)
    {p : VMADescriptor × CompactPageTable} (hp : p ∈ tables) : p.2.length < 2 ^ 64 := by
  have hsub : List.Sublist (entryMappings p.1.getStart p.2) (mappings tables) := by
    rcases List.append_of_mem hp with ⟨before, after, rfl⟩
    unfold mappings
    rw [List.flatMap_append, List.flatMap_cons]
    exact (List.sublist_append_left _ _).trans (List.sublist_append_right _ _)
  have haddrs : ((p.2.map fun e => e.1.toNat).map (· + p.1.getStart)).Nodup := by
    have hnodup := hdistinct.sublist (hsub.map Prod.fst)
    unfold entryMappings at hnodup
    rw [List.map_map] at hnodup ⊢
    exact hnodup
  have hoffsets : (p.2.map fun e => e.1.toNat).Nodup := List.Nodup.of_map _ haddrs
  have hlt : forall x, x ∈ p.2.map (fun e => e.1.toNat) -> x < 2 ^ 32 := by
    intro x hx
    rcases List.mem_map.mp hx with ⟨e, _, rfl⟩
    exact e.1.toNat_lt
  have hlen := length_le_of_nodup_lt hoffsets hlt
  rw [List.length_map] at hlen
  omega

theorem AddressesDistinct.unique (hdistinct : AddressesDistinct tables) {va pa pa' : Nat}
    (h : (va, pa) ∈ mappings tables) (h' : (va, pa') ∈ mappings tables) : pa = pa' := by
  have hpair := List.inj_on_of_nodup_map hdistinct h h' rfl
  exact congrArg Prod.snd hpair

theorem wellFormed_ofTables (regs : Regs) (machineInfo : Rdma)
    (hcount : tables.length < 2 ^ 64) (hdistinct : AddressesDistinct tables)
    (hfit : AddressesFit tables) :
    (ParentDescriptor.ofTables regs tables machineInfo).WellFormed := by
  have hzip : (ParentDescriptor.ofTables regs tables machineInfo).vma.zip
      (ParentDescriptor.ofTables regs tables machineInfo).pageTable = tables :=
    ParentDescriptor.zip_ofTables regs machineInfo
  constructor
  · show (tables.map Prod.snd).length = (tables.map Prod.fst).length
    rw [List.length_map, List.length_map]
  · rw [hzip]
    exact ⟨hcount, fun p hp => hdistinct.length_lt hp⟩
  · rw [hzip]
    exact hfit

end Tables

/-- What a consumer decodes from the layout of a list of VMAs with their tables: the
registers, the VMAs in order, the RDMA metadata, and a page table that answers
exactly the entries. -/
theorem deserialize_tables (lib : KernelLib Regs Rdma) (regs : Regs) (machineInfo : Rdma)
    (tables : List (VMADescriptor × CompactPageTable)) (rest : Bytes)
    (hcount : tables.length < 2 ^ 64) (hdistinct : AddressesDistinct tables)
    (hfit : AddressesFit tables) :
    exists d : HeapDescriptor Regs Rdma,
      HeapDescriptor.deserialize lib
          ((ParentDescriptor.ofTables regs tables machineInfo).encode lib ++ rest) = .ok d ∧
        d.regs = regs ∧ d.vma = tables.map Prod.fst ∧ d.machineInfo = machineInfo ∧
        forall va pa, d.lookupPgTable va = some pa <-> (va, pa) ∈ mappings tables := by
  have hwf := wellFormed_ofTables regs machineInfo hcount hdistinct hfit
  refine ⟨_, deserialize_encode lib hwf rest, rfl, rfl, rfl, ?_⟩
  intro va pa
  have hunique : forall v v', (va, v) ∈ mappings tables -> (va, v') ∈ mappings tables ->
      v = v' := fun _ _ h h' => hdistinct.unique h h'
  show (insertAll ∅ (mappings _)).lookup va = some pa <-> _
  rw [ParentDescriptor.zip_ofTables]
  exact lookup_insertAll_empty_iff hunique

def smallTables : List (VMADescriptor × CompactPageTable) :=
  [({ vmStart := 4096, vmEnd := 12288, flags := 0 }, [(4096, 28672)]),
    ({ vmStart := 12288, vmEnd := 16384, flags := 0 }, []),
    ({ vmStart := 16384, vmEnd := 24576, flags := 0 }, [(0, 32768), (4096, 28672)])]

theorem deserialize_tables_small :
    exists d : HeapDescriptor UInt64 UInt64,
      HeapDescriptor.deserialize plainLib
          ((ParentDescriptor.ofTables 5 smallTables 6).encode plainLib ++ [1, 2, 3]) = .ok d ∧
        d.regs = 5 ∧ d.vma = smallTables.map Prod.fst ∧ d.machineInfo = 6 ∧
        forall va pa, d.lookupPgTable va = some pa <-> (va, pa) ∈ mappings smallTables :=
  deserialize_tables plainLib 5 6 smallTables [1, 2, 3] (by decide)
    (by unfold AddressesDistinct; decide) (by unfold AddressesFit; decide)

end Descriptors
end Dmerge
