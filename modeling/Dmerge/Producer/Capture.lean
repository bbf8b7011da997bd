import Dmerge.Descriptors.Wire

/-!
# Capturing a heap

The registration of a heap walks the VMAs of the calling process.  A VMA is
captured when it contains the search key, and the key then moves to the end of
that VMA.  A page-table walk over each captured VMA records the present pages.
-/

namespace Dmerge
namespace Producer

open Foundation Memory Descriptors

/-- `HeapMeta` -/
structure HeapMeta where
  startVirtAddr : Nat
  deriving DecidableEq, Repr

/-- The calling process: its memory descriptor and its registers. -/
structure Task (Regs : Type) where
  mm : AddressSpace
  regs : Regs

def smallTask : Task UInt64 where
  mm :=
    { vmas := [{ vmStart := 4096, vmEnd := 12288, vmFlags := 0, vmFile := 0 }]
      pte := fun addr => if addr = 4096 then 28672 else 0
      nonempty := by decide
      ascending := by decide }
  regs := 0

/-- `ShadowPageTable<COW4KPage>`: the pages that were copied. -/
structure ShadowPageTable where
  copies : List (Nat × UInt64)
  deriving DecidableEq, Repr

def ShadowPageTable.new : ShadowPageTable := { copies := [] }

structure ShadowVMA where
  vmaInner : VMA
  shadowFile : UInt64
  isCow : Bool
  deriving DecidableEq, Repr

def ShadowVMA.new (vma : VMA) (isCow : Bool) : ShadowVMA where
  vmaInner := vma
  shadowFile := vma.getFilePtr
  isCow := isCow

def generateDescriptor (vma : VMA) : VMADescriptor where
  vmStart := vma.vmStart
  vmEnd := vma.vmEnd
  flags := vma.vmFlags

/-!
## Generating one page table
-/

namespace VMAPTGenerator

structure Tables where
  inner : ShadowPageTable
  innerFlat : CompactPageTable
  deriving DecidableEq, Repr

def handlePteEntry (vma : ShadowVMA) (my : Tables) (addr : Nat)
    (phyAddr : UInt64) : Tables :=
  if phyAddr > 0 then
    let start := vma.vmaInner.getStart
    { my with innerFlat := my.innerFlat.addOne (addr - start) phyAddr }
  else my

def generate (pte : Nat -> UInt64) (vma : ShadowVMA) (my : Tables) : Tables :=
  vma.vmaInner.pageAddrs.foldl (fun my addr => handlePteEntry vma my addr (pte addr)) my

end VMAPTGenerator

/-!
## The capture loop
-/

structure Capture where
  heapStart : Nat
  vmaDescriptors : List VMADescriptor
  shadowVmas : List ShadowVMA
  vmaPageTable : List CompactPageTable

def captureVma (s : Capture) (vma : VMA) : Capture :=
  let vmaDes := generateDescriptor vma
  if ¬ (s.heapStart ≥ vmaDes.getStart ∧ s.heapStart < vmaDes.getEnd) then s
  else
    { vmaDescriptors := s.vmaDescriptors ++ [vmaDes]
      shadowVmas := s.shadowVmas ++ [ShadowVMA.new vma true]
      vmaPageTable := s.vmaPageTable ++ [[]]
      heapStart := vmaDes.getEnd }

/-- The second loop: the walk over each captured VMA fills its page table, and
the shadow table is handed from one walk to the next. -/
def generateTables (pte : Nat -> UInt64) :
    List (ShadowVMA × CompactPageTable) -> ShadowPageTable ->
      List CompactPageTable × ShadowPageTable
  | [], shadowPt => ([], shadowPt)
  | (vma, pt) :: rest, shadowPt =>
      let my := VMAPTGenerator.generate pte vma { inner := shadowPt, innerFlat := pt }
      let (tables, shadowPt) := generateTables pte rest my.inner
      (my.innerFlat :: tables, shadowPt)

structure ShadowHeap (Regs Rdma : Type) where
  descriptor : ParentDescriptor Regs Rdma
  shadowVmas : List ShadowVMA
  shadowPageTable : Option ShadowPageTable
  deriving DecidableEq

variable {Regs Rdma : Type}

def ShadowHeap.new (task : Task Regs) (rdmaMeta : Rdma) (heapMeta : HeapMeta) :
    ShadowHeap Regs Rdma :=
  let s := task.mm.vmas.foldl captureVma
    { heapStart := heapMeta.startVirtAddr
      vmaDescriptors := []
      shadowVmas := []
      vmaPageTable := [] }
  let (vmaPageTable, shadowPt) :=
    generateTables task.mm.pte (s.shadowVmas.zip s.vmaPageTable) ShadowPageTable.new
  { shadowVmas := s.shadowVmas
    descriptor :=
      { regs := task.regs
        pageTable := vmaPageTable
        vma := s.vmaDescriptors
        machineInfo := rdmaMeta }
    shadowPageTable := some shadowPt }

/-!
## What is captured

The captured VMAs are the run that starts at the VMA of the search key.  Each
page table holds the present pages of its own VMA, and no page is copied.
-/

def heapRun : Nat -> List VMA -> List VMA
  | _, [] => []
  | key, vma :: rest =>
      if vma.Covers key then vma :: heapRun vma.getEnd rest else heapRun key rest

theorem heapRun_sublist (key : Nat) (vmas : List VMA) :
    (heapRun key vmas).Sublist vmas := by
  induction vmas generalizing key with
  | nil => exact List.Sublist.slnil
  | cons vma rest ih =>
      unfold heapRun
      by_cases hcovers : vma.Covers key
      · rw [if_pos hcovers]
        exact (ih vma.getEnd).cons_cons vma
      · rw [if_neg hcovers]
        exact (ih key).cons vma

def presentEntries (pte : Nat -> UInt64) (vma : VMA) : CompactPageTable :=
  (vma.pageAddrs.filter fun addr => pte addr > 0).map fun addr =>
    (UInt32.ofNat (addr - vma.getStart), pte addr)

theorem captureVma_covers {s : Capture} {vma : VMA} (h : vma.Covers s.heapStart) :
    captureVma s vma =
      { vmaDescriptors := s.vmaDescriptors ++ [generateDescriptor vma]
        shadowVmas := s.shadowVmas ++ [ShadowVMA.new vma true]
        vmaPageTable := s.vmaPageTable ++ [[]]
        heapStart := vma.getEnd } := by
  unfold captureVma
  exact if_neg (not_not.mpr h)

theorem captureVma_skips {s : Capture} {vma : VMA} (h : ¬ vma.Covers s.heapStart) :
    captureVma s vma = s := by
  unfold captureVma
  exact if_pos h

theorem foldl_captureVma (vmas : List VMA) (s : Capture) :
    exists heapStart,
      vmas.foldl captureVma s =
        { heapStart
          vmaDescriptors :=
            s.vmaDescriptors ++ (heapRun s.heapStart vmas).map generateDescriptor
          shadowVmas :=
            s.shadowVmas ++ (heapRun s.heapStart vmas).map fun vma => ShadowVMA.new vma true
          vmaPageTable :=
            s.vmaPageTable ++ (heapRun s.heapStart vmas).map fun _ => [] } := by
  induction vmas generalizing s with
  | nil => exact ⟨s.heapStart, by simp [heapRun]⟩
  | cons vma rest ih =>
      rw [List.foldl_cons]
      by_cases hcovers : vma.Covers s.heapStart
      · rcases ih (captureVma s vma) with ⟨heapStart, hrest⟩
        refine ⟨heapStart, ?_⟩
        rw [hrest, captureVma_covers hcovers]
        simp [heapRun, hcovers]
      · rcases ih s with ⟨heapStart, hrest⟩
        refine ⟨heapStart, ?_⟩
        rw [captureVma_skips hcovers, hrest]
        simp [heapRun, hcovers]

theorem generate_eq (pte : Nat -> UInt64) (vma : ShadowVMA)
    (my : VMAPTGenerator.Tables) :
    VMAPTGenerator.generate pte vma my =
      { my with innerFlat := my.innerFlat ++ presentEntries pte vma.vmaInner } := by
  unfold VMAPTGenerator.generate presentEntries
  induction vma.vmaInner.pageAddrs generalizing my with
  | nil => simp
  | cons addr rest ih =>
      rw [List.foldl_cons, ih]
      by_cases hpresent : pte addr > 0
      · simp [VMAPTGenerator.handlePteEntry, CompactPageTable.addOne, hpresent]
      · simp [VMAPTGenerator.handlePteEntry, hpresent]

theorem generateTables_eq (pte : Nat -> UInt64) (vmas : List VMA)
    (shadowPt : ShadowPageTable) :
    generateTables pte
        ((vmas.map fun vma => ShadowVMA.new vma true).zip (vmas.map fun _ => []))
        shadowPt =
      (vmas.map (presentEntries pte), shadowPt) := by
  induction vmas with
  | nil => rfl
  | cons vma rest ih =>
      simp only [List.map_cons, List.zip_cons_cons, generateTables, generate_eq, ih]
      simp [ShadowVMA.new]

theorem shadowHeap_new_eq (task : Task Regs) (rdmaMeta : Rdma) (heapMeta : HeapMeta) :
    ShadowHeap.new task rdmaMeta heapMeta =
      { descriptor :=
          { regs := task.regs
            pageTable :=
              (heapRun heapMeta.startVirtAddr task.mm.vmas).map (presentEntries task.mm.pte)
            vma := (heapRun heapMeta.startVirtAddr task.mm.vmas).map generateDescriptor
            machineInfo := rdmaMeta }
        shadowVmas :=
          (heapRun heapMeta.startVirtAddr task.mm.vmas).map fun vma => ShadowVMA.new vma true
        shadowPageTable := some ShadowPageTable.new } := by
  unfold ShadowHeap.new
  rcases foldl_captureVma task.mm.vmas
    { heapStart := heapMeta.startVirtAddr
      vmaDescriptors := []
      shadowVmas := []
      vmaPageTable := [] } with ⟨heapStart, hloop⟩
  rw [hloop]
  simp only [List.nil_append, generateTables_eq]

end Producer
end Dmerge
