import Dmerge.Kernel.Pages

/-!
# System calls and RPC handlers

The commands that a process issues on a handle, and the handlers that an RPC
worker runs for the requests of other machines.
-/

namespace Dmerge
namespace Kernel

open Foundation Memory Descriptors Producer

variable {Regs Rdma : Type}

/-!
## Reading a remote descriptor
-/

/-- An error answers `none`.  A wait that times out has no fallback path. -/
def remoteDescriptorFetch (size phyStartAddr : UInt64) (session : SessionId) :
    KProg Regs Rdma (Option Bytes) := do
  let _ ← Prog.expect unwrapNone (← invoke (.getSs session))
  let _ ← Prog.expect "failed to get DCQP" (← invoke .getDcQpKey)
  match ← invoke (.postRead session phyStartAddr size) with
  | false => return none
  | true =>
      match ← invoke (.blockOnRead (10 * timeoutUsec)) with
      | .done descriptorBuf => return some descriptorBuf
      | .elapsed => Prog.panic "not implemented"
      | .failed => return none

/-!
## Applying a descriptor

Each VMA is mapped into the calling process; a VMA that cannot be mapped is
logged and skipped.  `next` is the VMA that follows in the descriptor.
-/

/-- `origin_vma_flags.contains(VMFlags::VM_ALLOC)` -/
def containsAlloc (lib : KernelLib Regs Rdma) (m : VMADescriptor) : Bool :=
  m.flags &&& lib.vmAlloc == lib.vmAlloc

def keepAlloc (lib : KernelLib Regs Rdma) (m : VMADescriptor) : KProg Regs Rdma Unit :=
  if containsAlloc lib m then invoke (.setAlloc m) else return ()

def applyVmaEager (lib : KernelLib Regs Rdma) (d : HeapDescriptor Regs Rdma)
    (info : AccessInfo Rdma) (m : VMADescriptor) (next : Option VMADescriptor) :
    KProg Regs Rdma Unit := do
  match ← invoke (.mapOneRegion m next) with
  | false => return ()
  | true =>
      invoke (.setMixedMap m)
      keepAlloc lib m
      eagerFetchVma lib d m info

def applyEager (lib : KernelLib Regs Rdma) (d : HeapDescriptor Regs Rdma)
    (info : AccessInfo Rdma) : List VMADescriptor -> KProg Regs Rdma Unit
  | [] => return ()
  | m :: rest => do
      applyVmaEager lib d info m rest.head?
      applyEager lib d info rest

def applyVmaLazy (lib : KernelLib Regs Rdma) (m : VMADescriptor)
    (next : Option VMADescriptor) : KProg Regs Rdma Unit := do
  match ← invoke (.mapOneRegion m next) with
  | false => return ()
  | true => keepAlloc lib m

def applyLazy (lib : KernelLib Regs Rdma) : List VMADescriptor -> KProg Regs Rdma Unit
  | [] => return ()
  | m :: rest => do
      applyVmaLazy lib m rest.head?
      applyLazy lib rest

def applyTo (lib : KernelLib Regs Rdma) (d : HeapDescriptor Regs Rdma)
    (eagerFetch : Bool) : KProg Regs Rdma Unit := do
  if eagerFetch then
    let info ← Prog.expect unwrapNone (← invoke (.accessInfoNew d.machineInfo))
    applyEager lib d info d.vma
  else
    applyLazy lib d.vma

/-!
## The commands of a handle
-/

/-- `global_locks::get_ref()[cpu_id].lock()`: there is one lock for each CPU that the
library is configured for.  The unlock of an entry comes after its lock. -/
def lockCpu (lib : KernelLib Regs Rdma) (cpu : CpuId) : KProg Regs Rdma Unit := do
  if cpu < lib.maxCoreCnt then
    invoke (.lock cpu)
  else
    invoke .globalLocks
    Prog.panic indexOutOfBounds

theorem lockCpu_eq (lib : KernelLib Regs Rdma) (cpu : CpuId) :
    (cpu < lib.maxCoreCnt ∧ lockCpu lib cpu = invoke (.lock cpu)) ∨
      (¬ cpu < lib.maxCoreCnt ∧
        lockCpu lib cpu = .call .globalLocks fun _ => .panic indexOutOfBounds) := by
  unfold lockCpu
  by_cases hcpu : cpu < lib.maxCoreCnt
  · exact Or.inl ⟨hcpu, if_pos hcpu⟩
  · exact Or.inr ⟨hcpu, if_neg hcpu⟩

theorem lockCpu_only {allow : KernelOp Regs Rdma -> Prop} (lib : KernelLib Regs Rdma) (cpu : CpuId)
    (hlocks : allow .globalLocks) (hlock : allow (.lock cpu)) :
    (lockCpu lib cpu : KProg Regs Rdma Unit).Only allow := by
  rcases lockCpu_eq lib cpu with ⟨_, h⟩ | ⟨_, h⟩
  · rw [h]
    exact ⟨hlock, fun _ => True.intro⟩
  · rw [h]
    exact ⟨hlocks, fun _ => True.intro⟩

theorem run_lockCpu_returned {alpha sigma : Type} {lib : KernelLib Regs Rdma} {cpu : CpuId}
    {k : Unit -> KProg Regs Rdma alpha} {serve : (o : KernelOp Regs Rdma) -> sigma -> o.Res × sigma}
    {s s' : sigma} {r : alpha}
    (hrun : (lockCpu lib cpu >>= k).run serve s = (.returned r, s')) :
    cpu < lib.maxCoreCnt ∧
      (Prog.call (.lock cpu) k : KProg Regs Rdma alpha).run serve s = (.returned r, s') := by
  rcases lockCpu_eq lib cpu with ⟨hcpu, hlock⟩ | ⟨_, hlock⟩
  · rw [hlock] at hrun
    exact ⟨hcpu, hrun⟩
  · rw [hlock] at hrun
    cases hrun

def unlockFail (cpu : CpuId) : KProg Regs Rdma Int := do
  invoke (.unlock cpu)
  return -1

def registerHeap (key : UInt64) (heapStartAddr : Nat) : KProg Regs Rdma Unit := do
  let descriptor ← Prog.expect unwrapNone (← invoke .newFromDcTargetPool)
  invoke (.addBundler key heapStartAddr descriptor)

/-- ioctl-0 -/
def syscallRegisterMem (startVirtAddr : Nat) (hint : UInt64) : KProg Regs Rdma Int := do
  registerHeap hint startVirtAddr
  return 0

/-- What follows the read of the descriptor in ioctl-1. -/
def pullFetched (lib : KernelLib Regs Rdma) (handlerId : UInt64) (cpu : CpuId)
    (eagerFetch : Bool) (descBuf : Bytes) : KProg Regs Rdma Int :=
  match HeapDescriptor.deserialize lib descBuf with
  | .error .abort => Prog.panic addOverflow
  | .error .reject => unlockFail cpu
  | .ok des => do
      match ← invoke (.accessInfoNew des.machineInfo) with
      | none => unlockFail cpu
      | some info =>
          applyTo lib des eagerFetch
          invoke (.pushPublicHeap
            { id := handlerId, descriptor := des, accessInfo := info })
          invoke (.unlock cpu)
          return 0

/-- What follows the reply of a query in ioctl-1. -/
def pullReplied (lib : KernelLib Regs Rdma) (handlerId : UInt64) (cpu : CpuId)
    (session : SessionId) (eagerFetch : Bool) (d : HeapDescriptorQueryReply) :
    KProg Regs Rdma Int := do
  if ¬ d.ready then
    unlockFail cpu
  else
    match ← remoteDescriptorFetch d.sz d.pa session with
    | none => unlockFail cpu
    | some descBuf => pullFetched lib handlerId cpu eagerFetch descBuf

/-- ioctl-1 -/
def syscallRmap (lib : KernelLib Regs Rdma) (handlerId machineId : UInt64)
    (eagerFetch : Bool) : KProg Regs Rdma Int := do
  let cpu ← invoke .getCallingCpuId
  lockCpu lib cpu
  let _ ← Prog.expect "the caller should be properly initialized"
    (← invoke (.getGlobalCaller cpu))
  let remoteSession : SessionId := { machine := machineId, cpu := cpu }
  let mySession : SessionId := { machine := (← invoke .getMacId), cpu := cpu }
  match ← invoke (.syncCall remoteSession mySession .query (lib.usize.encode handlerId)) with
  | false => unlockFail cpu
  | true =>
      match ← invoke (.blockOnCaller (10 * timeoutUsec)) with
      | none => unlockFail cpu
      | some reply =>
          let _ ← Prog.expect "register msg buffer cannot fail" (← invoke .registerRecvBuf)
          match lib.queryReply.decode reply with
          | none => unlockFail cpu
          | some d => pullReplied lib handlerId cpu remoteSession eagerFetch d

/-- What follows the local registration in ioctl-5. -/
def remoteRegisterCall (lib : KernelLib Regs Rdma) (localHint remoteMachineId : UInt64)
    (buf : UInt64 × Nat) : KProg Regs Rdma Int := do
  let req : RegisterRemoteReq :=
    { pa := buf.1
      sz := UInt64.ofNat buf.2
      sourceMachineId := (← invoke .getMacId)
      ready := true }
  let cpu ← invoke .getCallingCpuId
  lockCpu lib cpu
  let _ ← Prog.expect "the caller should be properly initialized"
    (← invoke (.getGlobalCaller cpu))
  let remoteSession : SessionId := { machine := remoteMachineId, cpu := cpu }
  let mySession : SessionId := { machine := (← invoke .getMacId), cpu := cpu }
  match ← invoke (.syncCall remoteSession mySession .remoteRegister
      (lib.registerReq.encode req)) with
  | false => unlockFail cpu
  | true =>
      match ← invoke (.blockOnCaller (10 * timeoutUsec)) with
      | none => unlockFail cpu
      | some reply =>
          let _ ← Prog.expect "register msg buffer cannot fail" (← invoke .registerRecvBuf)
          match lib.registerReply.decode reply with
          | none => unlockFail cpu
          | some registerRemoteReply =>
              let resHint := registerRemoteReply.heapHint.toInt
              invoke (.unlock cpu)
              -- Only this exit frees the local heap.
              invoke (.unregister localHint)
              return resHint

/-- ioctl-5 -/
def syscallRegisterRemoteHeap (lib : KernelLib Regs Rdma) (startVirtAddr : Nat)
    (localHint remoteMachineId : UInt64) : KProg Regs Rdma Int := do
  registerHeap localHint startVirtAddr
  match ← invoke (.queryDescriptorBuf localHint) with
  | none => return -1
  | some buf => remoteRegisterCall lib localHint remoteMachineId buf

inductive Request where
  | register (heapBase : UInt64)
  | pull (heapHint machineId : UInt32) (eagerFetch : Bool)
  | registerRemote (heapBase : UInt64) (machineId : UInt32)
  deriving DecidableEq, Repr

def ioctrl (lib : KernelLib Regs Rdma) : Request -> KProg Regs Rdma Int
  | .register heapBase => do
      match ← invoke .getPrivateHint with
      | some hint => return hint.toInt64.toInt
      | none =>
          let heapHint ← Prog.expect addOverflow (← invoke .allocOneId)
          let _ ← syscallRegisterMem heapBase.toNat heapHint
          invoke (.setPrivateHint heapHint)
          return heapHint.toInt64.toInt
  | .pull heapHint machineId eagerFetch =>
      syscallRmap lib heapHint.toUInt64 machineId.toUInt64 eagerFetch
  | .registerRemote heapBase machineId => do
      let tmpHint ← Prog.expect addOverflow (← invoke .allocOneId)
      syscallRegisterRemoteHeap lib heapBase.toNat tmpHint machineId.toUInt64

/-- The handle is dropped when it is closed: the heap it registered is
unregistered. -/
def dropHandler : KProg Regs Rdma Unit := do
  match ← invoke .getPrivateHint with
  | some hint => invoke (.unregister hint)
  | none => return ()

/-!
## RPC handlers

A handler writes its reply at the head of the output buffer and returns the
number of bytes of the reply.
-/

def writeHead (bs output : Bytes) : Bytes :=
  if output.length < bs.length then output else bs ++ output.drop bs.length

theorem take_writeHead {alpha : Type} (c : FixedCodec alpha) (a : alpha) {output : Bytes}
    (hlong : c.size ≤ output.length) :
    (writeHead (c.encode a) output).take (c.bufLen a) = c.encode a := by
  have hlen : (c.encode a).length = c.bufLen a := c.length_encode a
  unfold writeHead
  rw [if_neg (by rw [hlen, c.bufLen_eq]; exact not_lt.mpr hlong), ← hlen]
  exact List.take_left

theorem decode_queryReply_nil (lib : KernelLib Regs Rdma) :
    lib.queryReply.decode [] = none := by
  have hne : ({ pa := 0, sz := 0, ready := true } : HeapDescriptorQueryReply) ≠
      { pa := 0, sz := 0, ready := false } := by
    decide
  exact lib.queryReply.decode_nil hne

theorem decode_registerReply_nil (lib : KernelLib Regs Rdma) :
    lib.registerReply.decode [] = none := by
  have hne : ({ heapHint := 0 } : RegisterRemoteReply) ≠ { heapHint := 1 } := by
    decide
  exact lib.registerReply.decode_nil hne

def handleNil (_input output : Bytes) : KProg Regs Rdma (Bytes × Nat) :=
  return (output, 64)

def handleEcho (lib : KernelLib Regs Rdma) (_input output : Bytes) :
    KProg Regs Rdma (Bytes × Nat) := do
  let output ← Prog.expect unwrapErr (lib.writeStr output "Hello from DMERGE")
  return (output, 64)

def handleQuery (lib : KernelLib Regs Rdma) (input output : Bytes) :
    KProg Regs Rdma (Bytes × Nat) := do
  -- A request that is too short leaves the key at zero.
  let key := (lib.usize.decode input).getD 0
  match ← invoke (.queryDescriptorBuf key) with
  | none => return (output, 0)
  | some (pa, len) =>
      let reply : HeapDescriptorQueryReply :=
        { pa := pa, sz := UInt64.ofNat len, ready := true }
      return (writeHead (lib.queryReply.encode reply) output, lib.queryReply.bufLen reply)

def handleRemoteRegisterFetchApply (lib : KernelLib Regs Rdma)
    (req : RegisterRemoteReq) : KProg Regs Rdma Int := do
  let cpu ← invoke .getCallingCpuId
  lockCpu lib cpu
  let _ ← Prog.expect "the caller should be properly initialized"
    (← invoke (.getGlobalCaller cpu))
  let remoteSession : SessionId := { machine := req.sourceMachineId, cpu := cpu }
  match ← remoteDescriptorFetch req.sz req.pa remoteSession with
  | none => unlockFail cpu
  | some descBuf =>
      match HeapDescriptor.deserialize lib descBuf with
      | .error .abort => Prog.panic addOverflow
      | .error .reject => unlockFail cpu
      | .ok des =>
          match ← invoke (.accessInfoNew des.machineInfo) with
          | none => unlockFail cpu
          | some _ =>
              -- The descriptor is not applied to any file.
              invoke (.unlock cpu)
              return 1048

def handleRemoteRegister (lib : KernelLib Regs Rdma) (input output : Bytes) :
    KProg Regs Rdma (Bytes × Nat) := do
  let req := (lib.registerReq.decode input).getD
    { pa := 0, sz := 0, sourceMachineId := 0, ready := false }
  let heapHint ← handleRemoteRegisterFetchApply lib req
  if heapHint < 0 then
    return (output, 0)
  else
    let reply : RegisterRemoteReply := { heapHint := Int64.ofInt heapHint }
    return (writeHead (lib.registerReply.encode reply) output,
      lib.registerReply.bufLen reply)

end Kernel
end Dmerge
