import Dmerge.Kernel.Calls

/-!
# Fetching pages

The consumer reads pages of a remote heap in two ways: one page at a page
fault, and batches of pages of a VMA when a heap is pulled eagerly.
-/

namespace Dmerge
namespace Kernel

open Foundation Memory Descriptors Producer

variable {Regs Rdma : Type}

/-!
## One page
-/

def readRemotePage (d : HeapDescriptor Regs Rdma) (remoteVa : Nat)
    (info : AccessInfo Rdma) : KProg Regs Rdma (Option PageId) := do
  match d.lookupPgTable remoteVa with
  | none => return none
  | some remotePa =>
      let newPage ← invoke .allocPage
      match ← invoke (.remoteRead newPage remotePa info) with
      | true => return some newPage
      | false =>
          invoke (.freePage newPage)
          return none

/-!
## Batches of pages

The reads of a batch are posted one after the other.  The read of the last
address of the list is the only one that is signaled and waited for.
-/

/-- The reads of the addresses from index `i` on, in a list of `n` addresses. -/
def batchReadFrom (d : HeapDescriptor Regs Rdma) (info : AccessInfo Rdma) (n : Nat) :
    Nat -> List Nat -> List (Option PageId) -> KProg Regs Rdma (List (Option PageId))
  | _, [], res => return res
  | i, remoteVa :: rest, res => do
      match d.lookupPgTable remoteVa with
      | none => batchReadFrom d info n (i + 1) rest (res ++ [none])
      | some remotePa =>
          let newPage ← invoke .allocPage
          let qp ← invoke .getDcQpKey
          let _ ← Prog.expect "failed to get DCQP" qp
          -- A post that fails is logged and otherwise ignored.
          let _ ← invoke (.postPageRead newPage remotePa info (i == n - 1))
          if i == n - 1 then
            match ← invoke .blockOnPageReads with
            | .done _ => batchReadFrom d info n (i + 1) rest (res ++ [some newPage])
            | _ =>
                invoke (.freePage newPage)
                batchReadFrom d info n (i + 1) rest (res ++ [none])
          else
            batchReadFrom d info n (i + 1) rest (res ++ [some newPage])

def batchReadRemotePages (d : HeapDescriptor Regs Rdma) (addrList : List Nat)
    (info : AccessInfo Rdma) : KProg Regs Rdma (List (Option PageId)) :=
  batchReadFrom d info addrList.length 0 addrList []

def insertPages (vmaDes : VMADescriptor) :
    List (Nat × Option PageId) -> KProg Regs Rdma Unit
  | [] => return ()
  | (_, none) :: rest => insertPages vmaDes rest
  | (addr, some newPage) :: rest => do
      -- A page that cannot be inserted is kept by nobody.
      let _ ← invoke (.vmInsertPage vmaDes addr newPage)
      insertPages vmaDes rest

def fetchBatch (d : HeapDescriptor Regs Rdma) (vmaDes : VMADescriptor)
    (info : AccessInfo Rdma) (addrBuf : List Nat) : KProg Regs Rdma Unit := do
  let pageList ← batchReadRemotePages d addrBuf info
  insertPages vmaDes (addrBuf.zip pageList)

/-- The length of a batch. -/
def batchLen : Nat := 12

def fetchFull (d : HeapDescriptor Regs Rdma) (vmaDes : VMADescriptor)
    (info : AccessInfo Rdma) (addrBuf : List Nat) : KProg Regs Rdma Unit :=
  if batchLen = addrBuf.length then fetchBatch d vmaDes info addrBuf else return ()

/-- The loop over the page addresses of a VMA.  The buffer is not emptied after
a batch. -/
def eagerFetchLoop (d : HeapDescriptor Regs Rdma) (vmaDes : VMADescriptor)
    (info : AccessInfo Rdma) : List Nat -> List Nat -> KProg Regs Rdma (List Nat)
  | [], addrBuf => return addrBuf
  | addr :: rest, addrBuf => do
      let addrBuf := if addrBuf.length < batchLen then addrBuf ++ [addr] else addrBuf
      fetchFull d vmaDes info addrBuf
      eagerFetchLoop d vmaDes info rest addrBuf

theorem pushed_take (addrBuf rest : List Nat) (addr : Nat) :
    (if addrBuf.length < batchLen then addrBuf ++ [addr] else addrBuf) ++
        rest.take (batchLen -
          (if addrBuf.length < batchLen then addrBuf ++ [addr] else addrBuf).length) =
      addrBuf ++ (addr :: rest).take (batchLen - addrBuf.length) := by
  split
  · next hlt =>
      rw [List.length_append, List.length_singleton, List.append_assoc]
      have hroom : batchLen - addrBuf.length = batchLen - (addrBuf.length + 1) + 1 := by
        omega
      rw [hroom, List.take_succ_cons]
      rfl
  · next hfull =>
      have hroom : batchLen - addrBuf.length = 0 := by
        omega
      rw [hroom, List.take_zero, List.take_zero]

/-- `(start..stop).step_by(4096)` -/
def stepAddrs (start stop : Nat) : List Nat :=
  (List.range ((stop - start + (pageSize - 1)) / pageSize)).map fun i => start + pageSize * i

def addWords (a b : UInt64) : Option Nat :=
  if a.toNat + b.toNat < 2 ^ 64 then some (a.toNat + b.toNat) else none

def fetchAll (d : HeapDescriptor Regs Rdma) (vmaDes : VMADescriptor) (info : AccessInfo Rdma)
    (addrs : List Nat) : KProg Regs Rdma Unit := do
  let addrBuf ← eagerFetchLoop d vmaDes info addrs []
  if ¬ addrBuf.isEmpty then
    fetchBatch d vmaDes info addrBuf

def eagerFetchVma (lib : KernelLib Regs Rdma) (d : HeapDescriptor Regs Rdma)
    (vmaDes : VMADescriptor) (info : AccessInfo Rdma) : KProg Regs Rdma Unit := do
  let size ← Prog.expect getSzPanic (lib.getSz vmaDes)
  let stop ← Prog.expect addOverflow (addWords vmaDes.vmStart size)
  fetchAll d vmaDes info (stepAddrs vmaDes.getStart stop)

def fetchAddrs (lib : KernelLib Regs Rdma) (m : VMADescriptor) : Option (List Nat) :=
  ((lib.getSz m).bind (addWords m.vmStart)).map (stepAddrs m.getStart)

theorem eagerFetchVma_eq (lib : KernelLib Regs Rdma) (d : HeapDescriptor Regs Rdma)
    (m : VMADescriptor) (info : AccessInfo Rdma) :
    (fetchAddrs lib m = none ∧ exists msg, eagerFetchVma lib d m info = .panic msg) ∨
      exists addrs, fetchAddrs lib m = some addrs ∧
        eagerFetchVma lib d m info = fetchAll d m info addrs := by
  unfold fetchAddrs eagerFetchVma
  cases lib.getSz m with
  | none => exact Or.inl ⟨rfl, getSzPanic, rfl⟩
  | some size =>
      cases hstop : addWords m.vmStart size with
      | none =>
          refine Or.inl ⟨?_, addOverflow, ?_⟩
          · rw [Option.bind_some, hstop, Option.map_none]
          · simp only [Prog.expect_some, Prog.ret_bind, hstop, Prog.expect_none, Prog.panic_bind]
      | some stop =>
          refine Or.inr ⟨stepAddrs m.getStart stop, ?_, ?_⟩
          · rw [Option.bind_some, hstop, Option.map_some]
          · simp only [Prog.expect_some, Prog.ret_bind, hstop]

theorem fetchAddrs_of_le (lib : KernelLib Regs Rdma) {m : VMADescriptor}
    (h : m.getStart ≤ m.getEnd) : fetchAddrs lib m = some (stepAddrs m.getStart m.getEnd) := by
  have hsize : (m.vmEnd - m.vmStart).toNat = m.getEnd - m.getStart :=
    UInt64.toNat_sub_of_le _ _ h
  have hstop : addWords m.vmStart (m.vmEnd - m.vmStart) = some m.getEnd := by
    have hend : m.vmStart.toNat + (m.vmEnd - m.vmStart).toNat = m.getEnd := by
      rw [hsize]
      exact Nat.add_sub_cancel' h
    have hword : m.getEnd < 2 ^ 64 := m.vmEnd.toNat_lt
    unfold addWords
    rw [hend, if_pos hword]
  unfold fetchAddrs
  rw [lib.getSz_of_le m h, Option.bind_some, hstop, Option.map_some]

/-!
## Page faults
-/

/-- The outcome of a fault: a page is installed, or the fault is a
segmentation fault. -/
inductive FaultResult where
  | page (newPage : PageId)
  | sigsegv
  deriving DecidableEq, Repr

/-- The loop over the pulled heaps, the oldest first; the first page that is
read ends it. -/
def findPage (faultAddr : Nat) :
    List (HeapDataStruct Regs Rdma) -> KProg Regs Rdma (Option PageId)
  | [] => return none
  | heap :: rest => do
      match heap.descriptor.lookupPgTable faultAddr with
      | none => findPage faultAddr rest
      | some _ =>
          match ← invoke (.accessInfoNew heap.descriptor.machineInfo) with
          | none => findPage faultAddr rest
          | some info =>
              match ← readRemotePage heap.descriptor faultAddr info with
              | some newPage => return some newPage
              | none => findPage faultAddr rest

def handlePageFault (publicHeaps : List (HeapDataStruct Regs Rdma))
    (faultAddr : Nat) : KProg Regs Rdma FaultResult := do
  match ← findPage faultAddr publicHeaps with
  | some newPage => return .page newPage
  | none => return .sigsegv

end Kernel
end Dmerge
