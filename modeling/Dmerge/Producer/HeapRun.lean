import Dmerge.Producer.Capture

/-!
# The run of a heap

What a capture is meant to take: the VMA of the start address and the VMAs after it,
for as long as each one starts where the one before it ends.  The loop moves its
search key instead; in an ascending list of VMAs this comes to the same.
-/

namespace Dmerge
namespace Producer

open Foundation Memory Descriptors

variable {Regs Rdma : Type}

def following : VMA -> List VMA -> List VMA
  | _, [] => []
  | prev, vma :: rest =>
      if vma.getStart = prev.getEnd then vma :: following vma rest else []

/-- The captured VMAs are the run of the VMA that contains an address. -/
structure TakesRun (vmas : List VMA) (heapStart : Nat) (captured : List VMA) : Prop where
  nothing : (forall vma, vma ∈ vmas -> ¬ vma.Covers heapStart) -> captured = []
  run : forall before vma after, vmas = before ++ vma :: after -> vma.Covers heapStart ->
    captured = vma :: following vma after

def HoldsPresent (pte : Nat -> UInt64) (vma : VMA) (table : CompactPageTable) : Prop :=
  exists pages : List Nat, pages.Nodup ∧
    (forall addr, addr ∈ pages <->
      (vma.Covers addr ∧ pageSize ∣ addr - vma.getStart) ∧ pte addr ≠ 0) ∧
    table = pages.map fun addr => (UInt32.ofNat (addr - vma.getStart), pte addr)

/-- The lists of a captured heap describe the same VMAs, index by index. -/
structure Aligned (pte : Nat -> UInt64) (captured : List VMA) (heap : ShadowHeap Regs Rdma) :
    Prop where
  descriptors : heap.descriptor.vma = captured.map generateDescriptor
  shadows : heap.shadowVmas.map ShadowVMA.vmaInner = captured
  tables : List.Forall₂ (HoldsPresent pte) captured heap.descriptor.pageTable

/-!
## The loop takes the run
-/

theorem heapRun_take {key : Nat} {vma : VMA} {rest : List VMA} (h : vma.Covers key) :
    heapRun key (vma :: rest) = vma :: heapRun vma.getEnd rest :=
  if_pos h

theorem heapRun_pass {key : Nat} {vma : VMA} {rest : List VMA} (h : ¬ vma.Covers key) :
    heapRun key (vma :: rest) = heapRun key rest :=
  if_neg h

theorem heapRun_none {key : Nat} {vmas : List VMA}
    (h : forall vma, vma ∈ vmas -> ¬ vma.Covers key) : heapRun key vmas = [] := by
  induction vmas with
  | nil => rfl
  | cons vma rest ih =>
      rw [heapRun_pass (h vma List.mem_cons_self)]
      exact ih fun w hw => h w (List.mem_cons_of_mem vma hw)

theorem heapRun_skip {key : Nat} {before : List VMA} (vmas : List VMA)
    (h : forall vma, vma ∈ before -> ¬ vma.Covers key) :
    heapRun key (before ++ vmas) = heapRun key vmas := by
  induction before with
  | nil => rfl
  | cons vma rest ih =>
      rw [List.cons_append, heapRun_pass (h vma List.mem_cons_self)]
      exact ih fun w hw => h w (List.mem_cons_of_mem vma hw)

theorem heapRun_getEnd {prev : VMA} {vmas : List VMA} (h : Ascending (prev :: vmas)) :
    heapRun prev.getEnd vmas = following prev vmas := by
  induction vmas generalizing prev with
  | nil => rfl
  | cons vma rest ih =>
      have hle : prev.getEnd ≤ vma.getStart :=
        (List.pairwise_cons.mp h.ascending).1 vma List.mem_cons_self
      have hnonempty := h.tail.nonempty vma List.mem_cons_self
      have hafter : forall w, w ∈ rest -> vma.getEnd ≤ w.getStart :=
        (List.pairwise_cons.mp h.tail.ascending).1
      unfold following
      by_cases hadjacent : vma.getStart = prev.getEnd
      · have hcovers : vma.Covers prev.getEnd := by
          constructor
          · exact Nat.le_of_eq hadjacent
          · rwa [<- hadjacent]
        rw [heapRun_take hcovers, if_pos hadjacent, ih h.tail]
      · have hgap : prev.getEnd < vma.getStart := lt_of_le_of_ne hle (Ne.symm hadjacent)
        have hskips : ¬ vma.Covers prev.getEnd := fun hcovers => Nat.not_lt.mpr hcovers.1 hgap
        rw [heapRun_pass hskips, if_neg hadjacent]
        apply heapRun_none
        intro w hw hcovers
        have hw' := hafter w hw
        have hstart := hcovers.1
        omega

theorem takesRun_heapRun {vmas : List VMA} (h : Ascending vmas) (heapStart : Nat) :
    TakesRun vmas heapStart (heapRun heapStart vmas) where
  nothing := heapRun_none
  run := by
    rintro before vma after rfl hcovers
    have hbefore : forall w, w ∈ before -> ¬ w.Covers heapStart := by
      intro w hw hcovers'
      have hend := (List.pairwise_append.mp h.ascending).2.2 w hw vma List.mem_cons_self
      have hlt := hcovers'.2
      have hle := hcovers.1
      omega
    have htail : Ascending (vma :: after) := h.sublist (List.sublist_append_right before _)
    rw [heapRun_skip _ hbefore, heapRun_take hcovers, heapRun_getEnd htail]

/-!
## The lists are aligned
-/

theorem nodup_pageAddrs (vma : VMA) : vma.pageAddrs.Nodup := by
  unfold VMA.pageAddrs
  apply List.Nodup.map
  · intro i j hij
    unfold pageSize at hij
    simp only at hij
    omega
  · exact List.nodup_range

theorem holdsPresent_presentEntries (pte : Nat -> UInt64) (vma : VMA) :
    HoldsPresent pte vma (presentEntries pte vma) := by
  refine ⟨vma.pageAddrs.filter fun addr => pte addr > 0, ?_, ?_, rfl⟩
  · exact (nodup_pageAddrs vma).filter _
  · intro addr
    rw [List.mem_filter, VMA.mem_pageAddrs, decide_eq_true_iff, gt_iff_lt, UInt64.pos_iff_ne_zero]

theorem aligned_new (task : Task Regs) (rdmaMeta : Rdma) (heapMeta : HeapMeta) :
    Aligned task.mm.pte (heapRun heapMeta.startVirtAddr task.mm.vmas)
      (ShadowHeap.new task rdmaMeta heapMeta) := by
  rw [shadowHeap_new_eq]
  constructor
  · rfl
  · simp [Function.comp_def, ShadowVMA.new]
  · rw [List.forall₂_map_right_iff]
    exact List.forall₂_same.mpr fun vma _ => holdsPresent_presentEntries task.mm.pte vma

/-- A capture takes exactly the run of the start address, and its three lists describe
the VMAs of the run in order. -/
theorem capture_takes_run (task : Task Regs) (rdmaMeta : Rdma) (heapMeta : HeapMeta) :
    exists captured : List VMA,
      TakesRun task.mm.vmas heapMeta.startVirtAddr captured ∧
        Aligned task.mm.pte captured (ShadowHeap.new task rdmaMeta heapMeta) :=
  ⟨heapRun heapMeta.startVirtAddr task.mm.vmas,
    takesRun_heapRun task.mm.ascending_vmas heapMeta.startVirtAddr,
    aligned_new task rdmaMeta heapMeta⟩

end Producer
end Dmerge
