import Dmerge.Descriptors.RoundTrip
import Dmerge.Producer.Capture

/-!
# Addresses of a pulled heap

A page entry stores the 32 low bits of the offset of a page in its VMA, and the
consumer adds them to the start of the VMA.  The page table it obtains agrees
with the address space of the producer as long as no present page lies 4 GiB or
more above the start of its VMA; the first such page already breaks it.
-/

namespace Dmerge
namespace Producer

open Foundation Memory Descriptors

variable {Regs Rdma : Type}

/-- The consumer's page table maps exactly the present pages of the captured
VMAs, each at its own address. -/
def AddressFidelity (lib : KernelLib Regs Rdma) (task : Task Regs) (rdmaMeta : Rdma)
    (heapMeta : HeapMeta) : Prop :=
  exists D,
    HeapDescriptor.deserialize lib
        ((ShadowHeap.new task rdmaMeta heapMeta).descriptor.encode lib) = .ok D ∧
      forall va, pageSize ∣ va -> forall pa,
        D.lookupPgTable va = some pa <->
          (exists m, m ∈ (ShadowHeap.new task rdmaMeta heapMeta).descriptor.vma ∧
            m.Covers va) ∧ (task.mm.pte va).toNat = pa ∧ 0 < pa

/-- Every present page of the captured run lies less than 4 GiB above the start
of its VMA. -/
def OffsetsFit (task : Task Regs) (heapMeta : HeapMeta) : Prop :=
  forall vma, vma ∈ heapRun heapMeta.startVirtAddr task.mm.vmas ->
    forall va, pageSize ∣ va -> vma.Covers va -> task.mm.pte va > 0 ->
      va - vma.getStart < 2 ^ 32

/-!
## The descriptor of a captured run
-/

theorem pte_pos_iff {phy : UInt64} : phy > 0 <-> 0 < phy.toNat := by
  rw [gt_iff_lt, UInt64.lt_iff_toNat_lt]
  rfl

def runDescriptor (task : Task Regs) (rdmaMeta : Rdma) (run : List VMA) :
    ParentDescriptor Regs Rdma where
  regs := task.regs
  pageTable := run.map (presentEntries task.mm.pte)
  vma := run.map generateDescriptor
  machineInfo := rdmaMeta

theorem shadowHeap_descriptor (task : Task Regs) (rdmaMeta : Rdma)
    (heapMeta : HeapMeta) :
    (ShadowHeap.new task rdmaMeta heapMeta).descriptor =
      runDescriptor task rdmaMeta (heapRun heapMeta.startVirtAddr task.mm.vmas) := by
  rw [shadowHeap_new_eq]
  rfl

theorem runDescriptor_zip (task : Task Regs) (rdmaMeta : Rdma) (run : List VMA) :
    (runDescriptor task rdmaMeta run).vma.zip (runDescriptor task rdmaMeta run).pageTable =
      run.map fun vma => (generateDescriptor vma, presentEntries task.mm.pte vma) :=
  List.zip_map'

def narrowed (vma : VMA) (addr : Nat) : Nat :=
  (addr - vma.getStart) % 2 ^ 32 + vma.getStart

theorem mem_mappings_run {pte : Nat -> UInt64} {run : List VMA} {a p : Nat} :
    (a, p) ∈ mappings (run.map fun vma =>
        (generateDescriptor vma, presentEntries pte vma)) <->
      exists vma, vma ∈ run ∧ exists addr, addr ∈ vma.pageAddrs ∧
        pte addr > 0 ∧ a = narrowed vma addr ∧ p = (pte addr).toNat := by
  unfold mappings entryMappings presentEntries narrowed
  constructor
  · intro h
    rcases List.mem_flatMap.mp h with ⟨q, hq, hmem⟩
    rcases List.mem_map.mp hq with ⟨vma, hvma, rfl⟩
    rcases List.mem_map.mp hmem with ⟨e, he, heq⟩
    rcases List.mem_map.mp he with ⟨addr, haddr, rfl⟩
    have hfilter := List.mem_filter.mp haddr
    cases heq
    exact ⟨vma, hvma, addr, hfilter.1, of_decide_eq_true hfilter.2,
      by rw [UInt32.toNat_ofNat']; rfl, rfl⟩
  · intro h
    rcases h with ⟨vma, hvma, addr, haddr, hpresent, ha, hp⟩
    refine List.mem_flatMap.mpr ⟨_, List.mem_map.mpr ⟨vma, hvma, rfl⟩, ?_⟩
    refine List.mem_map.mpr ⟨_, List.mem_map.mpr ⟨addr, ?_, rfl⟩, ?_⟩
    · exact List.mem_filter.mpr ⟨haddr, decide_eq_true hpresent⟩
    · rw [ha, hp, UInt32.toNat_ofNat']
      rfl

theorem narrowed_le {vma : VMA} {addr : Nat} (h : vma.Covers addr) :
    narrowed vma addr ≤ addr := by
  have hmod := Nat.mod_le (addr - vma.getStart) (2 ^ 32)
  have hstart := h.1
  unfold narrowed
  omega

theorem covers_narrowed {vma : VMA} {addr : Nat} (h : vma.Covers addr) :
    vma.Covers (narrowed vma addr) :=
  ⟨Nat.le_add_left _ _, Nat.lt_of_le_of_lt (narrowed_le h) h.2⟩

theorem narrowed_eq {vma : VMA} {addr : Nat} (h : vma.Covers addr)
    (hfit : addr - vma.getStart < 2 ^ 32) : narrowed vma addr = addr := by
  have hstart := h.1
  unfold narrowed
  rw [Nat.mod_eq_of_lt hfit]
  omega

theorem length_presentEntries_lt (pte : Nat -> UInt64) (vma : VMA) :
    (presentEntries pte vma).length < 2 ^ 64 := by
  have hfilter : (presentEntries pte vma).length ≤ vma.pageAddrs.length := by
    unfold presentEntries
    rw [List.length_map]
    exact List.length_filter_le _ _
  have hpages : vma.pageAddrs.length ≤ vma.getEnd := by
    unfold VMA.pageAddrs pageSize
    rw [List.length_map, List.length_range]
    omega
  have hend := vma.getEnd_lt
  omega

theorem runDescriptor_wellFormed (task : Task Regs) (rdmaMeta : Rdma) {run : List VMA}
    (hrun : Ascending run) : (runDescriptor task rdmaMeta run).WellFormed where
  aligned := by simp [runDescriptor]
  counts := by
    rw [runDescriptor_zip]
    refine ⟨by simpa using hrun.length_lt, ?_⟩
    intro p hp
    rcases List.mem_map.mp hp with ⟨vma, _, rfl⟩
    exact length_presentEntries_lt task.mm.pte vma
  addresses := by
    rw [runDescriptor_zip]
    intro m hm
    rcases mem_mappings_run.mp hm with ⟨vma, _, addr, haddr, _, hm, _⟩
    have hcovers := VMA.covers_of_mem_pageAddrs haddr
    have hend := vma.getEnd_lt
    rw [hm]
    exact lt_trans (covers_narrowed hcovers).2 hend

theorem heapRun_ascending (mm : AddressSpace) (key : Nat) :
    Ascending (heapRun key mm.vmas) :=
  mm.ascending_vmas.sublist (heapRun_sublist key mm.vmas)

theorem deserialize_shadowHeap (lib : KernelLib Regs Rdma) (task : Task Regs)
    (rdmaMeta : Rdma) (heapMeta : HeapMeta) (rest : Bytes) :
    HeapDescriptor.deserialize lib
        ((ShadowHeap.new task rdmaMeta heapMeta).descriptor.encode lib ++ rest) =
      .ok (ShadowHeap.new task rdmaMeta heapMeta).descriptor.toHeapDescriptor := by
  apply deserialize_encode
  rw [shadowHeap_descriptor]
  exact runDescriptor_wellFormed task rdmaMeta (heapRun_ascending task.mm _)

/-!
## The merged page table
-/

def runLookup (task : Task Regs) (run : List VMA) (va : Nat) : Option Nat :=
  (insertAll (∅ : RemotePageTable) (mappings (run.map fun vma =>
    (generateDescriptor vma, presentEntries task.mm.pte vma)))).lookup va

theorem lookup_shadowHeap (task : Task Regs) (rdmaMeta : Rdma) (heapMeta : HeapMeta)
    (va : Nat) :
    (ShadowHeap.new task rdmaMeta heapMeta).descriptor.toHeapDescriptor.lookupPgTable va =
      runLookup task (heapRun heapMeta.startVirtAddr task.mm.vmas) va := by
  rw [shadowHeap_descriptor]
  unfold HeapDescriptor.lookupPgTable RemotePageTable.translate
    ParentDescriptor.toHeapDescriptor runLookup
  rw [runDescriptor_zip]

theorem exists_page_of_runLookup {task : Task Regs} {run : List VMA} {va pa : Nat}
    (h : runLookup task run va = some pa) :
    exists vma, vma ∈ run ∧ exists addr, addr ∈ vma.pageAddrs ∧
      task.mm.pte addr > 0 ∧ va = narrowed vma addr ∧ pa = (task.mm.pte addr).toNat := by
  cases mem_of_lookup_insertAll h with
  | inl hmem => exact mem_mappings_run.mp hmem
  | inr hempty =>
      rw [Finmap.lookup_empty] at hempty
      cases hempty

theorem pageAddr_of_covers {vmas : List VMA} (haligned : PageAligned vmas) {vma : VMA}
    (hvma : vma ∈ vmas) {va : Nat} (hva : pageSize ∣ va) (hcovers : vma.Covers va) :
    va ∈ vma.pageAddrs :=
  VMA.mem_pageAddrs.mpr ⟨hcovers, Nat.dvd_sub hva (haligned vma hvma).1⟩

theorem narrowed_pageAddr {task : Task Regs} {run : List VMA} (haligned : PageAligned run)
    (hfit : forall vma, vma ∈ run -> forall va, pageSize ∣ va -> vma.Covers va ->
      task.mm.pte va > 0 -> va - vma.getStart < 2 ^ 32)
    {vma : VMA} (hvma : vma ∈ run) {addr : Nat} (haddr : addr ∈ vma.pageAddrs)
    (hpresent : task.mm.pte addr > 0) : narrowed vma addr = addr := by
  have hmem := VMA.mem_pageAddrs.mp haddr
  have hdvd : pageSize ∣ addr := by
    have hsum := Nat.dvd_add hmem.2 (haligned vma hvma).1
    rwa [Nat.sub_add_cancel hmem.1.1] at hsum
  exact narrowed_eq hmem.1 (hfit vma hvma addr hdvd hmem.1 hpresent)

theorem page_of_runLookup {task : Task Regs} {run : List VMA} (haligned : PageAligned run)
    (hfit : forall vma, vma ∈ run -> forall va, pageSize ∣ va -> vma.Covers va ->
      task.mm.pte va > 0 -> va - vma.getStart < 2 ^ 32)
    {va pa : Nat} (h : runLookup task run va = some pa) :
    task.mm.pte va > 0 ∧ pa = (task.mm.pte va).toNat := by
  rcases exists_page_of_runLookup h with ⟨vma, hvma, addr, haddr, hpresent, hva, hpa⟩
  rw [narrowed_pageAddr haligned hfit hvma haddr hpresent] at hva
  rw [hva]
  exact ⟨hpresent, hpa⟩

theorem runLookup_iff_of_fit {task : Task Regs} {run : List VMA}
    (haligned : PageAligned run)
    (hfit : forall vma, vma ∈ run -> forall va, pageSize ∣ va -> vma.Covers va ->
      task.mm.pte va > 0 -> va - vma.getStart < 2 ^ 32)
    {va pa : Nat} (hva : pageSize ∣ va) :
    runLookup task run va = some pa <->
      (exists vma, vma ∈ run ∧ vma.Covers va) ∧ (task.mm.pte va).toNat = pa ∧ 0 < pa := by
  -- Every recorded page keeps its own address, so the merged table has one
  -- value for each address.
  have hvalue : forall a p, (a, p) ∈ mappings (run.map fun vma =>
      (generateDescriptor vma, presentEntries task.mm.pte vma)) ->
      p = (task.mm.pte a).toNat := by
    intro a p hmem
    rcases mem_mappings_run.mp hmem with ⟨vma, hvma, addr, haddr, hpresent, ha, hp⟩
    rw [ha, narrowed_pageAddr haligned hfit hvma haddr hpresent, hp]
  have hlookup : runLookup task run va = some pa <->
      (va, pa) ∈ mappings (run.map fun vma =>
        (generateDescriptor vma, presentEntries task.mm.pte vma)) :=
    lookup_insertAll_empty_iff (fun p p' hp hp' =>
      (hvalue va p hp).trans (hvalue va p' hp').symm)
  rw [hlookup]
  constructor
  · intro hmem
    have hpa := hvalue va pa hmem
    rcases mem_mappings_run.mp hmem with ⟨vma, hvma, addr, haddr, hpresent, ha, hp⟩
    have hcovers := covers_narrowed (VMA.covers_of_mem_pageAddrs haddr)
    rw [← ha] at hcovers
    exact ⟨⟨vma, hvma, hcovers⟩, hpa.symm, hp ▸ pte_pos_iff.mp hpresent⟩
  · rintro ⟨⟨vma, hvma, hcovers⟩, hpa, hpos⟩
    have hpresent : task.mm.pte va > 0 := pte_pos_iff.mpr (hpa ▸ hpos)
    have haddr := pageAddr_of_covers haligned hvma hva hcovers
    exact mem_mappings_run.mpr ⟨vma, hvma, va, haddr, hpresent,
      (narrowed_pageAddr haligned hfit hvma haddr hpresent).symm, hpa.symm⟩

theorem runLookup_wide {task : Task Regs} {run : List VMA} (hrun : Ascending run)
    {vma : VMA} (hvma : vma ∈ run) {va : Nat} (hcovers : vma.Covers va)
    (hwide : ¬ va - vma.getStart < 2 ^ 32) : runLookup task run va = none := by
  cases hlook : runLookup task run va with
  | none => rfl
  | some pa =>
      rcases exists_page_of_runLookup hlook with ⟨vma', hvma', addr, haddr, _, hva, _⟩
      have hcovers' := covers_narrowed (VMA.covers_of_mem_pageAddrs haddr)
      rw [← hva] at hcovers'
      have heq : vma = vma' := hrun.eq_of_covers hvma hvma' hcovers hcovers'
      have hmod := Nat.mod_lt (addr - vma'.getStart) (show 0 < 2 ^ 32 by decide)
      unfold narrowed at hva
      rw [heq] at hwide
      omega

/-!
## Fidelity
-/

theorem exists_descriptor_covers {task : Task Regs} {rdmaMeta : Rdma}
    {heapMeta : HeapMeta} {va : Nat} :
    (exists m, m ∈ (ShadowHeap.new task rdmaMeta heapMeta).descriptor.vma ∧
        m.Covers va) <->
      exists vma, vma ∈ heapRun heapMeta.startVirtAddr task.mm.vmas ∧ vma.Covers va := by
  rw [shadowHeap_descriptor]
  constructor
  · rintro ⟨m, hm, hcovers⟩
    rcases List.mem_map.mp hm with ⟨vma, hvma, rfl⟩
    exact ⟨vma, hvma, hcovers⟩
  · rintro ⟨vma, hvma, hcovers⟩
    exact ⟨generateDescriptor vma, List.mem_map.mpr ⟨vma, hvma, rfl⟩, hcovers⟩

theorem addressFidelity_of_offsetsFit (lib : KernelLib Regs Rdma) {task : Task Regs}
    (rdmaMeta : Rdma) {heapMeta : HeapMeta} (haligned : PageAligned task.mm.vmas)
    (hfit : OffsetsFit task heapMeta) : AddressFidelity lib task rdmaMeta heapMeta := by
  have hsub := heapRun_sublist heapMeta.startVirtAddr task.mm.vmas
  have hdecode := deserialize_shadowHeap lib task rdmaMeta heapMeta []
  rw [List.append_nil] at hdecode
  refine ⟨_, hdecode, ?_⟩
  intro va hva pa
  rw [lookup_shadowHeap, exists_descriptor_covers]
  exact runLookup_iff_of_fit (fun vma hvma => haligned vma (hsub.subset hvma)) hfit hva

theorem offsetsFit_of_addressFidelity {lib : KernelLib Regs Rdma} {task : Task Regs}
    {rdmaMeta : Rdma} {heapMeta : HeapMeta}
    (hfidelity : AddressFidelity lib task rdmaMeta heapMeta) :
    OffsetsFit task heapMeta := by
  intro vma hvma va hva hcovers hpresent
  by_contra hwide
  rcases hfidelity with ⟨D, hD, hlookup⟩
  have hdecode := deserialize_shadowHeap lib task rdmaMeta heapMeta []
  rw [List.append_nil, hD] at hdecode
  cases hdecode
  have hsome := (hlookup va hva (task.mm.pte va).toNat).mpr
    ⟨exists_descriptor_covers.mpr ⟨vma, hvma, hcovers⟩, rfl, pte_pos_iff.mp hpresent⟩
  rw [lookup_shadowHeap, runLookup_wide (heapRun_ascending task.mm _) hvma hcovers hwide]
    at hsome
  cases hsome

/-- The pulled heap has the addresses of the producer exactly when every
present page lies less than 4 GiB above the start of its VMA. -/
theorem addressFidelity_iff (lib : KernelLib Regs Rdma) (task : Task Regs)
    (rdmaMeta : Rdma) (heapMeta : HeapMeta) (haligned : PageAligned task.mm.vmas) :
    AddressFidelity lib task rdmaMeta heapMeta <-> OffsetsFit task heapMeta :=
  ⟨offsetsFit_of_addressFidelity, addressFidelity_of_offsetsFit lib rdmaMeta haligned⟩

theorem addressFidelity_iff_small :
    PageAligned smallTask.mm.vmas ∧
      (AddressFidelity plainLib smallTask 0 { startVirtAddr := 4096 } <->
        OffsetsFit smallTask { startVirtAddr := 4096 }) := by
  have haligned : PageAligned smallTask.mm.vmas := by
    unfold PageAligned pageSize
    decide
  exact ⟨haligned, addressFidelity_iff plainLib smallTask 0 _ haligned⟩

/-- A heap of 8 GiB at 16 TiB whose only present page lies 4 GiB above its
start. -/
def wideTask : Task UInt64 where
  mm :=
    { vmas := [{ vmStart := 17592186044416, vmEnd := 17600775979008,
                 vmFlags := 0, vmFile := 0 }]
      pte := fun addr => if addr = 17596481011712 then 20480 else 0
      nonempty := by decide
      ascending := by decide }
  regs := 0

theorem not_addressFidelity_wide :
    PageAligned wideTask.mm.vmas ∧
      ¬ AddressFidelity plainLib wideTask 0 { startVirtAddr := 17592186044416 } := by
  constructor
  · unfold PageAligned pageSize
    decide
  · intro hfidelity
    have hfit := offsetsFit_of_addressFidelity hfidelity
      { vmStart := 17592186044416, vmEnd := 17600775979008, vmFlags := 0, vmFile := 0 }
      (by decide) 17596481011712 (by decide) (by decide) (by decide)
    exact absurd hfit (by decide)

end Producer
end Dmerge
