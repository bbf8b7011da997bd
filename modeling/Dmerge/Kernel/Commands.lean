import Dmerge.Kernel.Machine

/-!
# Entering the module

A process enters the module by an ioctl: a command number and the address of an
argument in its own memory, where it can have put anything.  Another machine
enters it by a request that an RPC worker hands to a handler.
-/

namespace Dmerge
namespace Kernel

open Foundation Memory Descriptors Producer

variable {Regs Rdma : Type}

/-!
## The argument of an ioctl
-/

abbrev UserMemory := UInt64 -> Bytes

/-- `_copy_from_user`: what cannot be read is zero. -/
def copyFromUser (user : UserMemory) (addr : UInt64) (size : Nat) : Bytes :=
  (user addr ++ List.replicate size 0).take size

/-- A field of `w` bytes at an offset of a structure. -/
def field (bs : Bytes) (offset w : Nat) : Nat :=
  fromLE ((bs.drop offset).take w)

structure ConnectReq where
  machineId : UInt32
  nicId : UInt32
  gid : UInt64
  deriving DecidableEq, Repr

structure GetMacIdReq where
  nicIdx : UInt32
  gid : UInt64
  machineId : UInt64
  deriving DecidableEq, Repr

def readRegisterReq (bs : Bytes) : Request :=
  .register (UInt64.ofNat (field bs 0 8))

def readPullReq (bs : Bytes) : Request :=
  .pull (UInt32.ofNat (field bs 0 4)) (UInt32.ofNat (field bs 4 4)) (field bs 8 1 ≠ 0)

def readConnectReq (bs : Bytes) : ConnectReq where
  machineId := UInt32.ofNat (field bs 0 4)
  nicId := UInt32.ofNat (field bs 4 4)
  gid := UInt64.ofNat (field bs 8 8)

def readGetMacIdReq (bs : Bytes) : GetMacIdReq where
  nicIdx := UInt32.ofNat (field bs 0 4)
  gid := UInt64.ofNat (field bs 8 8)
  machineId := UInt64.ofNat (field bs 16 8)

def readRegisterRemoteReq (bs : Bytes) : Request :=
  .registerRemote (UInt64.ofNat (field bs 0 8)) (UInt32.ofNat (field bs 8 4))

/-- `core::str::from_utf8` -/
def fromUtf8 (bs : Bytes) : Option Bytes :=
  if (ByteArray.mk bs.toArray).validateUTF8 = true then some bs else none

/-!
## The commands
-/

/-- ioctl-3 -/
def syscallConnectSession (machineId : UInt64) (gid : Bytes) (nicIdx : UInt64) :
    KProg Regs Rdma Int := do
  match ← invoke (.probeRemoteRpcEnd machineId gid nicIdx) with
  | some _ => return 0
  | none => return -1

def gidLen : Nat := 39

def connectGid (user : UserMemory) (arg : UInt64) : Bytes :=
  copyFromUser user (readConnectReq (copyFromUser user arg 16)).gid gidLen

def connect (user : UserMemory) (arg : UInt64) : KProg Regs Rdma Int := do
  let req := readConnectReq (copyFromUser user arg 16)
  let addr ← Prog.expect unwrapErr (fromUtf8 (connectGid user arg))
  syscallConnectSession req.machineId.toUInt64 addr req.nicId.toUInt64

/-- ioctl-4 -/
def getMacId (req : GetMacIdReq) : KProg Regs Rdma Int := do
  match ← invoke (.getRdmaContext req.nicIdx.toUInt64) with
  | none => return 0
  | some gidStr =>
      let machineId ← invoke .getMacId
      invoke (.copyToUser req.gid gidStr)
      invoke (.copyToUser req.machineId (toLE 8 machineId.toNat))
      return gidStr.length

def DmergeSyscallHandler.ioctrl (lib : KernelLib Regs Rdma) (cmd : UInt32) (arg : UInt64)
    (user : UserMemory) : KProg Regs Rdma Int :=
  match cmd.toNat with
  | 0 => Kernel.ioctrl lib (readRegisterReq (copyFromUser user arg 8))
  | 1 => Kernel.ioctrl lib (readPullReq (copyFromUser user arg 12))
  | 3 => connect user arg
  | 4 => getMacId (readGetMacIdReq (copyFromUser user arg 24))
  | 5 => Kernel.ioctrl lib (readRegisterRemoteReq (copyFromUser user arg 16))
  | _ => return -1

/-!
## The entries of the module
-/

inductive Entry where
  | ioctrl (cmd : UInt32) (arg : UInt64) (user : UserMemory)
  | nil (input output : Bytes)
  | echo (input output : Bytes)
  | query (input output : Bytes)
  | remoteRegister (input output : Bytes)

/-- What an entry returns: the result of a command, or the output buffer of a
handler and the number of bytes of the reply. -/
inductive Returned where
  | result (value : Int)
  | reply (output : Bytes) (len : Nat)
  deriving DecidableEq, Repr

namespace Entry

def code (lib : KernelLib Regs Rdma) : Entry -> KProg Regs Rdma Returned
  | .ioctrl cmd arg user => do
      return .result (← DmergeSyscallHandler.ioctrl lib cmd arg user)
  | .nil input output => do
      let (output, len) ← handleNil input output
      return .reply output len
  | .echo input output => do
      let (output, len) ← handleEcho lib input output
      return .reply output len
  | .query input output => do
      let (output, len) ← handleQuery lib input output
      return .reply output len
  | .remoteRegister input output => do
      let (output, len) ← handleRemoteRegister lib input output
      return .reply output len

end Entry
end Kernel
end Dmerge
