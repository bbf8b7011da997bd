import Dmerge.Kernel.Machine

/-!
# The calls of a pull

Applying a descriptor makes calls on the memory of the calling process only.  A
whole pull makes no call that concerns the registry or the private heap of the
handle: the only call of the module that it makes appends to the pulled heaps.
-/

namespace Dmerge
namespace Kernel

open Foundation Memory Descriptors Producer Prog

variable {Regs Rdma : Type}

def KernelOp.Fetching : KernelOp Regs Rdma -> Prop
  | .allocPage | .freePage _ | .getDcQpKey | .postPageRead _ _ _ _ | .blockOnPageReads
  | .vmInsertPage _ _ _ => True
  | _ => False

def KernelOp.Mapping : KernelOp Regs Rdma -> Prop
  | .accessInfoNew _ | .mapOneRegion _ _ | .setMixedMap _ | .setAlloc _ | .allocPage
  | .freePage _ | .getDcQpKey | .postPageRead _ _ _ _ | .blockOnPageReads
  | .vmInsertPage _ _ _ => True
  | _ => False

/-- The calls that leave the registry and the private heaps alone and tell
nothing about them. -/
def KernelOp.Quiet : KernelOp Regs Rdma -> Prop
  | .pushPublicHeap _ => True
  | o => o.External

theorem KernelOp.Fetching.mapping {o : KernelOp Regs Rdma} (h : o.Fetching) : o.Mapping := by
  cases o <;> first | exact True.intro | exact h.elim

theorem KernelOp.Mapping.quiet {o : KernelOp Regs Rdma} (h : o.Mapping) : o.Quiet := by
  cases o <;> first | exact True.intro | exact h.elim

variable (lib : KernelLib Regs Rdma) (d : HeapDescriptor Regs Rdma)

/-!
## Applying a descriptor
-/

theorem batchReadFrom_fetching (info : AccessInfo Rdma) (n i : Nat) (addrs : List Nat)
    (res : List (Option PageId)) :
    (batchReadFrom d info n i addrs res).Only KernelOp.Fetching := by
  induction addrs generalizing i res with
  | nil => exact True.intro
  | cons remoteVa rest ih =>
      unfold batchReadFrom
      cases d.lookupPgTable remoteVa with
      | none => exact ih (i + 1) _
      | some remotePa =>
          simp only [invoke_bind]
          refine ⟨True.intro, fun newPage => ⟨True.intro, fun qp => ?_⟩⟩
          refine (only_expect _ qp).bind fun _ => ⟨True.intro, fun posted => ?_⟩
          by_cases hlast : (i == n - 1) = true
          · rw [if_pos hlast]
            refine ⟨True.intro, fun completion => ?_⟩
            cases completion with
            | done => exact ih (i + 1) _
            | elapsed => exact ⟨True.intro, fun _ => ih (i + 1) _⟩
            | failed => exact ⟨True.intro, fun _ => ih (i + 1) _⟩
          · rw [if_neg hlast]
            exact ih (i + 1) _

theorem insertPages_fetching (vmaDes : VMADescriptor) (pages : List (Nat × Option PageId)) :
    (insertPages vmaDes pages : KProg Regs Rdma Unit).Only KernelOp.Fetching := by
  induction pages with
  | nil => exact True.intro
  | cons page rest ih =>
      rcases page with ⟨addr, newPage⟩
      cases newPage with
      | none => exact ih
      | some newPage => exact ⟨True.intro, fun _ => ih⟩

theorem fetchBatch_fetching (vmaDes : VMADescriptor) (info : AccessInfo Rdma)
    (addrBuf : List Nat) : (fetchBatch d vmaDes info addrBuf).Only KernelOp.Fetching :=
  (batchReadFrom_fetching d info _ _ _ _).bind fun _ => insertPages_fetching _ _

theorem fetchFull_fetching (vmaDes : VMADescriptor) (info : AccessInfo Rdma)
    (addrBuf : List Nat) : (fetchFull d vmaDes info addrBuf).Only KernelOp.Fetching := by
  unfold fetchFull
  by_cases hfull : batchLen = addrBuf.length
  · rw [if_pos hfull]
    exact fetchBatch_fetching d vmaDes info addrBuf
  · rw [if_neg hfull]
    exact True.intro

theorem eagerFetchLoop_fetching (vmaDes : VMADescriptor) (info : AccessInfo Rdma)
    (addrs addrBuf : List Nat) :
    (eagerFetchLoop d vmaDes info addrs addrBuf).Only KernelOp.Fetching := by
  induction addrs generalizing addrBuf with
  | nil => exact True.intro
  | cons addr rest ih => exact (fetchFull_fetching d vmaDes info _).bind fun _ => ih _

theorem fetchAll_fetching (vmaDes : VMADescriptor) (info : AccessInfo Rdma)
    (addrs : List Nat) : (fetchAll d vmaDes info addrs).Only KernelOp.Fetching := by
  refine (eagerFetchLoop_fetching d vmaDes info _ _).bind fun addrBuf => ?_
  by_cases hempty : ¬ addrBuf.isEmpty
  · simp only [if_pos hempty]
    exact fetchBatch_fetching d vmaDes info addrBuf
  · simp only [if_neg hempty]
    exact True.intro

theorem eagerFetchVma_fetching (vmaDes : VMADescriptor) (info : AccessInfo Rdma) :
    (eagerFetchVma lib d vmaDes info).Only KernelOp.Fetching := by
  rcases eagerFetchVma_eq lib d vmaDes info with ⟨_, msg, hpanic⟩ | ⟨addrs, _, hfetch⟩
  · rw [hpanic]
    exact True.intro
  · rw [hfetch]
    exact fetchAll_fetching d vmaDes info addrs

theorem keepAlloc_mapping (m : VMADescriptor) :
    (keepAlloc lib m : KProg Regs Rdma Unit).Only KernelOp.Mapping := by
  unfold keepAlloc
  by_cases halloc : containsAlloc lib m
  · rw [if_pos halloc]
    exact ⟨True.intro, fun _ => True.intro⟩
  · rw [if_neg halloc]
    exact True.intro

theorem applyVmaEager_mapping (info : AccessInfo Rdma) (m : VMADescriptor)
    (next : Option VMADescriptor) :
    (applyVmaEager lib d info m next).Only KernelOp.Mapping := by
  refine ⟨True.intro, fun vma => ?_⟩
  cases vma with
  | false => exact True.intro
  | true =>
      exact ⟨True.intro, fun _ =>
        (keepAlloc_mapping lib m).bind fun _ =>
          (eagerFetchVma_fetching lib d m info).weaken fun _ => KernelOp.Fetching.mapping⟩

theorem applyEager_mapping (info : AccessInfo Rdma) (vmas : List VMADescriptor) :
    (applyEager lib d info vmas).Only KernelOp.Mapping := by
  induction vmas with
  | nil => exact True.intro
  | cons m rest ih => exact (applyVmaEager_mapping lib d info m _).bind fun _ => ih

theorem applyVmaLazy_mapping (m : VMADescriptor) (next : Option VMADescriptor) :
    (applyVmaLazy lib m next : KProg Regs Rdma Unit).Only KernelOp.Mapping := by
  refine ⟨True.intro, fun vma => ?_⟩
  cases vma with
  | false => exact True.intro
  | true => exact keepAlloc_mapping lib m

theorem applyLazy_mapping (vmas : List VMADescriptor) :
    (applyLazy lib vmas : KProg Regs Rdma Unit).Only KernelOp.Mapping := by
  induction vmas with
  | nil => exact True.intro
  | cons m rest ih => exact (applyVmaLazy_mapping lib m _).bind fun _ => ih

theorem applyTo_mapping (eagerFetch : Bool) :
    (applyTo lib d eagerFetch).Only KernelOp.Mapping := by
  cases eagerFetch with
  | false => exact applyLazy_mapping lib d.vma
  | true =>
      exact ⟨True.intro, fun info =>
        (only_expect _ info).bind fun info => applyEager_mapping lib d info d.vma⟩

/-!
## A whole pull
-/

theorem unlockFail_quiet (cpu : CpuId) :
    (unlockFail cpu : KProg Regs Rdma Int).Only KernelOp.Quiet :=
  ⟨True.intro, fun _ => True.intro⟩

theorem remoteDescriptorFetch_quiet (size phyStartAddr : UInt64) (session : SessionId) :
    (remoteDescriptorFetch size phyStartAddr session :
      KProg Regs Rdma (Option Bytes)).Only KernelOp.Quiet := by
  refine ⟨True.intro, fun ss => (only_expect _ ss).bind fun _ => ?_⟩
  refine ⟨True.intro, fun qp => (only_expect _ qp).bind fun _ => ?_⟩
  refine ⟨True.intro, fun posted => ?_⟩
  cases posted with
  | false => exact True.intro
  | true =>
      refine ⟨True.intro, fun completion => ?_⟩
      cases completion <;> exact True.intro

theorem pullFetched_quiet (handlerId : UInt64) (cpu : CpuId) (eagerFetch : Bool)
    (descBuf : Bytes) :
    (pullFetched lib handlerId cpu eagerFetch descBuf).Only KernelOp.Quiet := by
  unfold pullFetched
  cases HeapDescriptor.deserialize lib descBuf with
  | error stop =>
      cases stop with
      | abort => exact True.intro
      | reject => exact unlockFail_quiet cpu
  | ok des =>
      refine ⟨True.intro, fun info => ?_⟩
      cases info with
      | none => exact unlockFail_quiet cpu
      | some info =>
          exact ((applyTo_mapping lib des eagerFetch).weaken fun _ =>
            KernelOp.Mapping.quiet).bind fun _ =>
              ⟨True.intro, fun _ => ⟨True.intro, fun _ => True.intro⟩⟩

theorem pullReplied_quiet (handlerId : UInt64) (cpu : CpuId) (session : SessionId)
    (eagerFetch : Bool) (reply : HeapDescriptorQueryReply) :
    (pullReplied lib handlerId cpu session eagerFetch reply).Only KernelOp.Quiet := by
  unfold pullReplied
  by_cases hready : ¬ reply.ready
  · rw [if_pos hready]
    exact unlockFail_quiet cpu
  · rw [if_neg hready]
    refine (remoteDescriptorFetch_quiet _ _ _).bind fun descBuf => ?_
    cases descBuf with
    | none => exact unlockFail_quiet cpu
    | some descBuf => exact pullFetched_quiet lib handlerId cpu eagerFetch descBuf

theorem syscallRmap_quiet (handlerId machineId : UInt64) (eagerFetch : Bool) :
    (syscallRmap lib handlerId machineId eagerFetch).Only KernelOp.Quiet := by
  refine ⟨True.intro, fun cpu => (lockCpu_only lib cpu True.intro True.intro).bind fun _ => ?_⟩
  refine ⟨True.intro, fun caller => (only_expect _ caller).bind fun _ => ?_⟩
  refine ⟨True.intro, fun machine => ⟨True.intro, fun sent => ?_⟩⟩
  cases sent with
  | false => exact unlockFail_quiet cpu
  | true =>
      refine ⟨True.intro, fun reply => ?_⟩
      cases reply with
      | none => exact unlockFail_quiet cpu
      | some reply =>
          refine ⟨True.intro, fun buf => (only_expect _ buf).bind fun _ => ?_⟩
          cases lib.queryReply.decode reply with
          | none => exact unlockFail_quiet cpu
          | some d => exact pullReplied_quiet lib handlerId cpu _ eagerFetch d

end Kernel
end Dmerge
