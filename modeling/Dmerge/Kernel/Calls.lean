import Dmerge.Foundation.Prog
import Dmerge.Producer.Service

/-!
# The calls of the kernel module

The signature of the module's code: the calls it makes on the CPU it runs on,
on its RPC caller, on the RDMA queue pairs, on the memory of the calling
process, on the handle it serves, on the registry of heaps, and on the
connections of the machine.  Registry calls
are answered by code of the module itself, the others by the kernel library.
-/

namespace Dmerge
namespace Kernel

open Foundation Memory Descriptors Producer

abbrev CpuId := Nat

abbrev PageId := Nat

inductive RPCId where
  | nil
  | echo
  | query
  | remoteRegister
  deriving DecidableEq, Repr

/-- `calculate_session_id`: a session is told by its machine and CPU.  That two of them
never share an identifier, and that it is computed without a panic, is left to the
kernel library, as is what happens inside `RMemory::new` and `get_pending_reqs`. -/
structure SessionId where
  machine : UInt64
  cpu : CpuId
  deriving DecidableEq, Repr

structure AccessInfo (Rdma : Type) where
  machineInfo : Rdma
  deriving DecidableEq

inductive Completion (alpha : Type) where
  | done (a : alpha)
  | elapsed
  | failed
  deriving DecidableEq

/-- A pulled heap, as the handle keeps it. -/
structure HeapDataStruct (Regs Rdma : Type) where
  id : UInt64
  descriptor : HeapDescriptor Regs Rdma
  accessInfo : AccessInfo Rdma
  deriving DecidableEq

inductive KernelOp (Regs Rdma : Type) where
  -- the CPU the code runs on
  | getCallingCpuId
  | globalLocks
  | lock (cpu : CpuId)
  | unlock (cpu : CpuId)
  -- the RPC caller of a CPU
  | getGlobalCaller (cpu : CpuId)
  | getMacId
  | syncCall (session mySession : SessionId) (rpc : RPCId) (payload : Bytes)
  | blockOnCaller (timeoutUsec : Nat)
  | registerRecvBuf
  -- one-sided reads of descriptors
  | getSs (session : SessionId)
  | getDcQpKey
  | postRead (session : SessionId) (raddr sz : UInt64)
  | blockOnRead (timeoutUsec : Nat)
  -- the memory of the calling process
  | accessInfoNew (machineInfo : Rdma)
  | mapOneRegion (m : VMADescriptor) (next : Option VMADescriptor)
  | setMixedMap (m : VMADescriptor)
  | setAlloc (m : VMADescriptor)
  | allocPage
  | freePage (page : PageId)
  | remoteRead (page : PageId) (pa : Nat) (info : AccessInfo Rdma)
  | postPageRead (page : PageId) (pa : Nat) (info : AccessInfo Rdma) (signaled : Bool)
  | blockOnPageReads
  | vmInsertPage (m : VMADescriptor) (addr : Nat) (page : PageId)
  -- the handle the code serves
  | getPrivateHint
  | setPrivateHint (hint : UInt64)
  | pushPublicHeap (heap : HeapDataStruct Regs Rdma)
  -- the registry
  | allocOneId
  | newFromDcTargetPool
  | addBundler (key : UInt64) (heapStart : Nat) (rdmaMeta : Rdma)
  | queryDescriptorBuf (key : UInt64)
  | unregister (key : UInt64)
  -- connections to other machines
  | probeRemoteRpcEnd (machineId : UInt64) (gid : Bytes) (nicIdx : UInt64)
  | getRdmaContext (nicIdx : UInt64)
  | copyToUser (dst : UInt64) (bytes : Bytes)

/-- The answers.  A call that may fail answers with a flag, a call that yields
something or nothing with an option. -/
abbrev KernelOp.Res {Regs Rdma : Type} : KernelOp Regs Rdma -> Type
  | getCallingCpuId => CpuId
  | getGlobalCaller _ => Option Unit
  | getMacId => UInt64
  | syncCall _ _ _ _ => Bool
  | blockOnCaller _ => Option Bytes
  | registerRecvBuf => Option Unit
  | getSs _ => Option Unit
  | getDcQpKey => Option Unit
  | postRead _ _ _ => Bool
  | blockOnRead _ => Completion Bytes
  | accessInfoNew _ => Option (AccessInfo Rdma)
  | mapOneRegion _ _ => Bool
  | allocPage => PageId
  | remoteRead _ _ _ => Bool
  | postPageRead _ _ _ _ => Bool
  | blockOnPageReads => Completion Unit
  | vmInsertPage _ _ _ => Bool
  | getPrivateHint => Option UInt64
  | allocOneId => Option UInt64
  | newFromDcTargetPool => Option Rdma
  | queryDescriptorBuf _ => Option (UInt64 × Nat)
  | probeRemoteRpcEnd _ _ _ => Option Unit
  -- The GID of the context, as a string.
  | getRdmaContext _ => Option Bytes
  | _ => Unit

/-- An answer to every call. -/
abbrev Answers (Regs Rdma : Type) := (o : KernelOp Regs Rdma) -> o.Res

abbrev kernelSig (Regs Rdma : Type) : Signature where
  Op := KernelOp Regs Rdma
  Res := KernelOp.Res

abbrev KProg (Regs Rdma : Type) := Prog (kernelSig Regs Rdma)

def invoke {Regs Rdma : Type} (o : KernelOp Regs Rdma) : KProg Regs Rdma o.Res :=
  Prog.call o Prog.ret

@[simp] theorem invoke_bind {Regs Rdma alpha : Type} (o : KernelOp Regs Rdma)
    (f : o.Res -> KProg Regs Rdma alpha) :
    (@bind (KProg Regs Rdma) _ (no_index o.Res) alpha (invoke o) f) = Prog.call o f := rfl

/-- `TIMEOUT_USEC` -/
def timeoutUsec : Nat := 1000000

/-- The panic of an `unwrap` on `None`. -/
def unwrapNone : String := "called `Option::unwrap()` on a `None` value"

/-- The panic of an `unwrap` on `Err`. -/
def unwrapErr : String := "called `Result::unwrap()` on an `Err` value"

def addOverflow : String := "attempt to add with overflow"

/-- The panic of an access to a `Vec` beyond its length. -/
def indexOutOfBounds : String := "index out of bounds"

/-- The panic of `get_sz`, whatever its text. -/
def getSzPanic : String := "get_sz"

end Kernel
end Dmerge
