import Dmerge.Kernel.Aborts
import Dmerge.Kernel.PullCalls
import Dmerge.Producer.AddressFidelity

/-!
# Hints from remote registrations

Four parties have to agree on one number for a remote registration to be of use:
the machine that registers a heap for a moment, the handler that fetches its
descriptor, the reply, and the registry that a later query looks the number up in.
The commands of all machines are run one after the other, and each part of a call
across the network may fail.
-/

namespace Dmerge
namespace Kernel

open Foundation Memory Descriptors Producer Prog

variable {Regs Rdma : Type} {bufSize : Nat}

/-!
## Calls across the network
-/

abbrev Machines (Regs Rdma : Type) (bufSize : Nat) := UInt64 -> ModuleState Regs Rdma bufSize

/-- A command in progress: the request that it has sent, to a machine, and the read that
it has posted, of a machine's memory. -/
structure Session (Regs Rdma : Type) (bufSize : Nat) where
  machines : Machines Regs Rdma bufSize
  request : Option (UInt64 × RPCId × Bytes)
  read : Option (UInt64 × UInt64 × UInt64)

/-- What surrounds a command on its machine, and the worker that handles its request,
with the buffer for the reply. -/
structure CallEnv (Regs Rdma : Type) where
  caller : Surroundings Regs Rdma
  worker : Surroundings Regs Rdma
  output : Bytes

/-- The buffer of a worker holds a reply. -/
def CallEnv.Fits (env : CallEnv Regs Rdma) (lib : KernelLib Regs Rdma) : Prop :=
  lib.queryReply.size ≤ env.output.length ∧ lib.registerReply.size ≤ env.output.length

instance (env : CallEnv Regs Rdma) (lib : KernelLib Regs Rdma) : Decidable (env.Fits lib) :=
  inferInstanceAs (Decidable (_ ∧ _))

def completeRead (completion : Completion Bytes) (st : Session Regs Rdma bufSize) :
    Completion Bytes :=
  match completion, st.read with
  | .done _, some (m, raddr, sz) =>
      .done (((st.machines m).pool.bytes raddr).take sz.toNat)
  | .elapsed, _ => .elapsed
  | _, _ => .failed

def serveOn (lib : KernelLib Regs Rdma) (machine : UInt64) (self : Nat)
    (env : Surroundings Regs Rdma) :
    (o : KernelOp Regs Rdma) -> Session Regs Rdma bufSize -> o.Res × Session Regs Rdma bufSize
  | .getMacId, st => (machine, st)
  | .postRead session raddr sz, st =>
      (env.answer (.postRead session raddr sz),
        { st with
            read := some (session.machine, raddr, sz) })
  | .blockOnRead timeoutUsec, st =>
      (completeRead (env.answer (.blockOnRead timeoutUsec)) st, st)
  | o, st =>
      ((serve lib self env (st.machines machine) o).1,
        { st with
            machines := Function.update st.machines machine
              (serve lib self env (st.machines machine) o).2.1 })

def sentReply (r : Outcome (Bytes × Nat) × Session Regs Rdma bufSize) :
    Option Bytes × Machines Regs Rdma bufSize :=
  match r.1 with
  | .returned (bytes, n) => (some (bytes.take n), r.2.machines)
  | .panicked _ => (none, r.2.machines)

def handleRequest (lib : KernelLib Regs Rdma) (env : CallEnv Regs Rdma)
    (machines : Machines Regs Rdma bufSize) (target : UInt64) (payload : Bytes) :
    RPCId -> Option Bytes × Machines Regs Rdma bufSize
  | .query =>
      sentReply ((handleQuery lib payload env.output).run (serveOn lib target 0 env.worker)
        { machines := machines, request := none, read := none })
  | .remoteRegister =>
      sentReply ((handleRemoteRegister lib payload env.output).run
        (serveOn lib target 0 env.worker)
        { machines := machines, request := none, read := none })
  | _ => (none, machines)

def awaitReply (lib : KernelLib Regs Rdma) (env : CallEnv Regs Rdma) (arrives : Bool)
    (st : Session Regs Rdma bufSize) : Option Bytes × Session Regs Rdma bufSize :=
  match arrives, st.request with
  | true, some (target, rpc, payload) =>
      let (reply, machines) := handleRequest lib env st.machines target payload rpc
      (reply, { st with machines := machines, request := none })
  | _, _ => (none, st)

def serveCommand (lib : KernelLib Regs Rdma) (machine : UInt64) (self : Nat)
    (env : CallEnv Regs Rdma) :
    (o : KernelOp Regs Rdma) -> Session Regs Rdma bufSize -> o.Res × Session Regs Rdma bufSize
  | .syncCall session mySession rpc payload, st =>
      let sent := env.caller.answer (.syncCall session mySession rpc payload)
      (sent,
        { st with
            request := if sent = true then some (session.machine, rpc, payload) else none })
  | .blockOnCaller timeoutUsec, st =>
      awaitReply lib env (env.caller.answer (.blockOnCaller timeoutUsec)).isSome st
  | o, st => serveOn lib machine self env.caller o st

/-!
## Runs of commands
-/

/-- A remote registration that returned a hint: the machine that it was sent to, the hint
and the heap registered for a moment. -/
structure Remote (Regs Rdma : Type) where
  machineId : UInt32
  hint : Int
  reg : Registration Regs Rdma

structure Cluster (Regs Rdma : Type) (bufSize : Nat) where
  machines : Machines Regs Rdma bufSize
  /-- The results of ioctl-0, with the machine. -/
  pushes : List (UInt64 × Int)
  /-- The ioctl-5 calls that returned a hint. -/
  remotes : List (Remote Regs Rdma)

inductive ClusterAct (Regs Rdma : Type) where
  | openHandle (machine : UInt64) (self : Nat)
  | command (machine : UInt64) (self : Nat) (req : Request) (env : CallEnv Regs Rdma)
  | closeHandle (machine : UInt64) (self : Nat) (env : CallEnv Regs Rdma)

namespace Cluster

def init (pool : Pool bufSize) : Cluster Regs Rdma bufSize where
  machines _ := ModuleState.init pool
  pushes := []
  remotes := []

def Opened (s : Cluster Regs Rdma bufSize) (machine : UInt64) (self : Nat) : Prop :=
  ((s.machines machine).handlers self).isSome

instance (s : Cluster Regs Rdma bufSize) (machine : UInt64) (self : Nat) :
    Decidable (s.Opened machine self) :=
  inferInstanceAs (Decidable (_ = true))

/-- A command of an open handle, run to its end. -/
def runCommand (lib : KernelLib Regs Rdma) (s : Cluster Regs Rdma bufSize) (machine : UInt64)
    (self : Nat) (req : Request) (env : CallEnv Regs Rdma) :
    Outcome Int × Session Regs Rdma bufSize :=
  (ioctrl lib req).run (serveCommand lib machine self env)
    { machines := s.machines, request := none, read := none }

def note (s : Cluster Regs Rdma bufSize) (machine : UInt64) (env : CallEnv Regs Rdma)
    (result : Int) : Request -> Cluster Regs Rdma bufSize
  | .register _ => { s with pushes := s.pushes ++ [(machine, result)] }
  | .pull _ _ _ => s
  | .registerRemote heapBase machineId =>
      match env.caller.answer .newFromDcTargetPool with
      | some rdmaMeta =>
          if 0 ≤ result then
            { s with
                remotes := s.remotes ++
                  [{ machineId := machineId
                     hint := result
                     reg :=
                       { heapStartAddr := heapBase.toNat
                         task := env.caller.task
                         rdmaMeta := rdmaMeta
                         buf := env.caller.buf } }] }
          else s
      | none => s

/-- One step.  A registration is given a free buffer. -/
def step (lib : KernelLib Regs Rdma) (s : Cluster Regs Rdma bufSize) :
    ClusterAct Regs Rdma -> Option (Cluster Regs Rdma bufSize × List Unit)
  | .openHandle machine self =>
      if s.Opened machine self then none
      else
        some
          ({ s with
              machines := Function.update s.machines machine
                ((s.machines machine).setHandler self (some DmergeSyscallHandler.default)) }, [])
  | .command machine self req env =>
      if s.Opened machine self ∧ env.Fits lib ∧ (s.machines machine).Free env.caller.buf then
        match s.runCommand lib machine self req env with
        | (.returned result, st) =>
            some ({ s with machines := st.machines }.note machine env result req, [])
        | (.panicked _, st) => some ({ s with machines := st.machines }, [])
      else none
  | .closeHandle machine self env =>
      if s.Opened machine self then
        some
          ({ s with
              machines := Function.update s.machines machine
                ((runAlone lib self env.caller dropHandler
                  (s.machines machine)).2.1.setHandler self none) }, [])
      else none

end Cluster

/-!
## What a remote registration promises
-/

namespace Remote

/-- The descriptor of the heap, as it was at the call. -/
def descriptor (r : Remote Regs Rdma) : HeapDescriptor Regs Rdma :=
  r.reg.heap.descriptor.toHeapDescriptor

end Remote

structure Consumer (Regs Rdma : Type) where
  machine : UInt64
  self : Nat
  eagerFetch : Bool
  env : CallEnv Regs Rdma

/-- Every part of a call across the network succeeds, on a CPU that has a lock, and a
region that is mapped can be stepped through. -/
structure Connected (lib : KernelLib Regs Rdma) (answer : Answers Regs Rdma) : Prop where
  cpu : answer .getCallingCpuId < lib.maxCoreCnt
  mapped : forall m next, answer (.mapOneRegion m next) = true -> (fetchAddrs lib m).isSome
  caller : forall cpu, answer (.getGlobalCaller cpu) = some ()
  sent : forall session mySession rpc payload,
    answer (.syncCall session mySession rpc payload) = true
  replied : forall timeoutUsec, (answer (.blockOnCaller timeoutUsec)).isSome
  received : answer .registerRecvBuf = some ()
  session : forall session, answer (.getSs session) = some ()
  queuePair : answer .getDcQpKey = some ()
  posted : forall session raddr sz, answer (.postRead session raddr sz) = true
  completed : forall timeoutUsec, exists bytes, answer (.blockOnRead timeoutUsec) = .done bytes
  access : forall machineInfo, (answer (.accessInfoNew machineInfo)).isSome

namespace Consumer

def Connected (p : Consumer Regs Rdma) (lib : KernelLib Regs Rdma)
    (s : Cluster Regs Rdma bufSize) : Prop :=
  s.Opened p.machine p.self ∧ p.env.Fits lib ∧ Kernel.Connected lib p.env.caller.answer

def heaps (p : Consumer Regs Rdma) (machines : Machines Regs Rdma bufSize) :
    List (HeapDataStruct Regs Rdma) :=
  (((machines p.machine).handlers p.self).map DmergeSyscallHandler.publicHeaps).getD []

def PullsHeap (p : Consumer Regs Rdma) (lib : KernelLib Regs Rdma)
    (s : Cluster Regs Rdma bufSize) (hint : Int) (machineId : UInt32)
    (d : HeapDescriptor Regs Rdma) : Prop :=
  (s.runCommand lib p.machine p.self
      (.pull (UInt32.ofNat hint.toNat) machineId p.eagerFetch) p.env).1 = .returned 0 ∧
    exists heap, heap.descriptor = d ∧
      p.heaps (s.runCommand lib p.machine p.self
        (.pull (UInt32.ofNat hint.toNat) machineId p.eagerFetch) p.env).2.machines =
          p.heaps s.machines ++ [heap]

end Consumer

/-- The hints that remote registrations returned can be used. -/
structure HintsUsable (lib : KernelLib Regs Rdma) (s : Cluster Regs Rdma bufSize) : Prop where
  pulls : forall r, r ∈ s.remotes -> forall p : Consumer Regs Rdma, p.Connected lib s ->
    p.PullsHeap lib s r.hint r.machineId r.descriptor
  distinct : forall r r', r ∈ s.remotes -> r' ∈ s.remotes -> r.machineId = r'.machineId ->
    r.descriptor ≠ r'.descriptor -> r.hint ≠ r'.hint
  fresh : forall r, r ∈ s.remotes -> (r.machineId.toUInt64, r.hint) ∉ s.pushes

/-- The registry of a machine has a bundle under a key whose buffer is read as the given
descriptor. -/
def Cluster.Serves (s : Cluster Regs Rdma bufSize) (lib : KernelLib Regs Rdma)
    (machine key : UInt64) (d : HeapDescriptor Regs Rdma) : Prop :=
  exists b, (s.machines machine).bundle key = some b ∧
    HeapDescriptor.deserialize lib
      (((s.machines machine).pool.bytes b.serializedBuf).take
        (UInt64.ofNat b.serializedBufLen).toNat) = .ok d

def fixedHint : UInt32 := 1048

/-- The heaps registered at a machine are one heap, which the machine itself has registered
under 1048, though no ioctl-0 was given that hint. -/
structure FixedHintServes (lib : KernelLib Regs Rdma) (s : Cluster Regs Rdma bufSize) :
    Prop where
  serves : (exists p : Consumer Regs Rdma, p.Connected lib s) -> forall r, r ∈ s.remotes ->
    s.Serves lib r.machineId.toUInt64 fixedHint.toUInt64 r.descriptor
  same : forall r r', r ∈ s.remotes -> r' ∈ s.remotes -> r.machineId = r'.machineId ->
    r.descriptor = r'.descriptor
  fresh : forall r, r ∈ s.remotes -> (r.machineId.toUInt64, 1048) ∉ s.pushes

/-!
## The reply to a remote registration
-/

section Replies

variable {lib : KernelLib Regs Rdma}

def NamesFixed (lib : KernelLib Regs Rdma) (reply : Bytes) : Prop :=
  forall d, lib.registerReply.decode reply = some d -> d.heapHint.toInt = 1048

theorem unlockFail_yields (cpu : CpuId) :
    (unlockFail cpu : KProg Regs Rdma Int).Yields fun heapHint =>
      heapHint = -1 ∨ heapHint = 1048 := by
  intro _
  exact Or.inl rfl

theorem lockCpu_yields {cpu : CpuId} {k : Unit -> KProg Regs Rdma Int} {post : Int -> Prop}
    (hk : (k ()).Yields post) : (lockCpu lib cpu >>= k : KProg Regs Rdma Int).Yields post := by
  rcases lockCpu_eq lib cpu with ⟨_, hlock⟩ | ⟨_, hlock⟩
  · rw [hlock]
    exact fun _ => hk
  · rw [hlock]
    exact fun _ => True.intro

theorem fetchApply_yields (req : RegisterRemoteReq) :
    (handleRemoteRegisterFetchApply lib req).Yields fun heapHint =>
      heapHint = -1 ∨ heapHint = 1048 := by
  unfold handleRemoteRegisterFetchApply remoteDescriptorFetch
  simp only [invoke_bind, call_bind, Prog.bind_assoc]
  intro cpu
  apply lockCpu_yields
  intro caller
  apply yields_expect
  intro _ ss
  apply yields_expect
  intro _ qp
  apply yields_expect
  intro _ posted
  cases posted with
  | false => exact unlockFail_yields cpu
  | true =>
      intro completion
      cases completion with
      | elapsed => exact True.intro
      | failed => exact unlockFail_yields cpu
      | done descBuf =>
          simp only [pure_eq, Prog.bind]
          cases HeapDescriptor.deserialize lib descBuf with
          | error stop =>
              cases stop with
              | abort => exact True.intro
              | reject => exact unlockFail_yields cpu
          | ok des =>
              intro info
              cases info with
              | none => exact unlockFail_yields cpu
              | some _ =>
                  intro _
                  exact Or.inr rfl

theorem handleRemoteRegister_yields (input output : Bytes) :
    (handleRemoteRegister lib input output).Yields fun sent => sent.2 = 0 ∨
      sent = (writeHead (lib.registerReply.encode { heapHint := 1048 }) output,
        lib.registerReply.bufLen { heapHint := 1048 }) := by
  unfold handleRemoteRegister
  apply (fetchApply_yields _).bind
  intro heapHint hfixed
  cases hfixed with
  | inl hfail =>
      rw [if_pos (by rw [hfail]; decide)]
      exact Or.inl rfl
  | inr hhint =>
      rw [if_neg (by rw [hhint]; decide), hhint]
      exact Or.inr rfl

theorem handleRequest_fixed {env : CallEnv Regs Rdma} (hfits : env.Fits lib)
    (machines : Machines Regs Rdma bufSize) (target : UInt64) (payload : Bytes) {reply : Bytes}
    (hreply : (handleRequest lib env machines target payload .remoteRegister).1 = some reply) :
    NamesFixed lib reply := by
  unfold handleRequest sentReply at hreply
  cases hrun : (handleRemoteRegister lib payload env.output).run
      (serveOn lib target 0 env.worker)
      { machines := machines, request := none, read := none } with
  | mk out st =>
      rw [hrun] at hreply
      cases out with
      | panicked msg => cases hreply
      | returned sent =>
          rcases sent with ⟨bytes, n⟩
          cases hreply
          cases (handleRemoteRegister_yields payload env.output).run hrun with
          | inl hnone =>
              have hn : n = 0 := hnone
              intro d hd
              rw [hn, List.take_zero, decode_registerReply_nil lib] at hd
              cases hd
          | inr hsent =>
              cases hsent
              intro d hd
              rw [take_writeHead _ _ hfits.2, lib.registerReply.decode_encode_nil] at hd
              cases hd
              decide

/-!
## The result of a remote registration
-/

def replyNext (lib : KernelLib Regs Rdma) (g : Option RPCId) :
    (o : KernelOp Regs Rdma) -> o.Res -> Option RPCId -> Prop
  | .syncCall _ _ rpc _, sent, g' => g' = if sent = true then some rpc else none
  | .blockOnCaller _, reply, _ => forall bytes, reply = some bytes ->
      g = some .remoteRegister -> NamesFixed lib bytes
  | _, _, g' => g' = g

def replyProtocol (lib : KernelLib Regs Rdma) : Protocol (kernelSig Regs Rdma) where
  State := Option RPCId
  may _ _ := True
  next g o r g' := replyNext lib g o r g'

def FixedResult (_ : Option RPCId) (out : Outcome Int) : Prop :=
  forall result, out = .returned result -> 0 ≤ result -> result = 1048

theorem fixedResult_panicked (g : Option RPCId) (msg : String) :
    FixedResult g (.panicked msg) := by
  intro result hend
  cases hend

theorem unlockFail_result (cpu : CpuId) (g : Option RPCId) :
    (unlockFail cpu : KProg Regs Rdma Int).Conforms (replyProtocol lib) FixedResult g := by
  refine ⟨True.intro, fun _ g' _ result hend hpos => ?_⟩
  cases hend
  exact absurd hpos (by decide)

theorem expect_result {alpha : Type} {msg : String} {x : Option alpha}
    {k : alpha -> KProg Regs Rdma Int} {g : Option RPCId}
    (hk : forall y, (k y).Conforms (replyProtocol lib) FixedResult g) :
    (Prog.expect msg x >>= k).Conforms (replyProtocol lib) FixedResult g := by
  cases x with
  | none => exact fixedResult_panicked g msg
  | some y => exact hk y

theorem lockCpu_result {cpu : CpuId} {k : Unit -> KProg Regs Rdma Int} {g : Option RPCId}
    (hk : forall g', (k ()).Conforms (replyProtocol lib) FixedResult g') :
    (lockCpu lib cpu >>= k : KProg Regs Rdma Int).Conforms (replyProtocol lib) FixedResult g := by
  rcases lockCpu_eq lib cpu with ⟨_, hlock⟩ | ⟨_, hlock⟩
  · rw [hlock]
    exact ⟨True.intro, fun _ g' _ => hk g'⟩
  · rw [hlock]
    exact ⟨True.intro, fun _ g' _ => fixedResult_panicked g' indexOutOfBounds⟩

theorem remoteRegisterCall_result (localHint machineId : UInt64) (buf : UInt64 × Nat)
    (g : Option RPCId) :
    (remoteRegisterCall lib localHint machineId buf).Conforms (replyProtocol lib) FixedResult
      g := by
  unfold remoteRegisterCall
  simp only [invoke_bind]
  refine ⟨True.intro, fun source _ _ => ⟨True.intro, fun cpu _ _ => lockCpu_result fun _ => ?_⟩⟩
  refine ⟨True.intro, fun caller g1 _ => ?_⟩
  refine expect_result fun _ => ⟨True.intro, fun m g2 _ => ⟨True.intro, fun sent g3 hsent => ?_⟩⟩
  cases sent with
  | false => exact unlockFail_result cpu g3
  | true =>
      have hasked : g3 = some .remoteRegister := hsent
      refine ⟨True.intro, fun reply g4 hreply => ?_⟩
      cases reply with
      | none => exact unlockFail_result cpu g4
      | some reply =>
          have hnames : NamesFixed lib reply := hreply reply rfl hasked
          refine ⟨True.intro, fun received g5 _ => expect_result fun _ => ?_⟩
          cases hdecode : lib.registerReply.decode reply with
          | none => exact unlockFail_result cpu g5
          | some d =>
              refine ⟨True.intro, fun _ _ _ => ⟨True.intro, fun _ _ _ result hend _ => ?_⟩⟩
              cases hend
              exact hnames d hdecode

theorem registerRemote_result (heapBase : UInt64) (machineId : UInt32) (g : Option RPCId) :
    (ioctrl lib (.registerRemote heapBase machineId)).Conforms (replyProtocol lib) FixedResult
      g := by
  unfold ioctrl syscallRegisterRemoteHeap registerHeap
  simp only [invoke_bind, call_bind, Prog.bind_assoc]
  refine ⟨True.intro, fun id g1 _ => expect_result fun localHint => ?_⟩
  refine ⟨True.intro, fun rdmaMeta g2 _ => expect_result fun _ => ?_⟩
  refine ⟨True.intro, fun _ _ _ => ⟨True.intro, fun buf g3 _ => ?_⟩⟩
  cases buf with
  | none =>
      intro result hend hpos
      cases hend
      exact absurd hpos (by decide)
  | some buf => exact remoteRegisterCall_result localHint _ buf g3

theorem request_serveOn (machine : UInt64) (self : Nat) (env : Surroundings Regs Rdma)
    (o : KernelOp Regs Rdma) (st : Session Regs Rdma bufSize) :
    (serveOn lib machine self env o st).2.request = st.request := by
  cases o <;> rfl

def Asked (g : Option RPCId) (st : Session Regs Rdma bufSize) : Prop :=
  g = st.request.map fun request => request.2.1

theorem awaitReply_fixed {env : CallEnv Regs Rdma} (hfits : env.Fits lib) (arrives : Bool)
    (st : Session Regs Rdma bufSize) {g : Option RPCId} (hasked : Asked g st) {reply : Bytes}
    (hreply : (awaitReply lib env arrives st).1 = some reply)
    (hg : g = some .remoteRegister) : NamesFixed lib reply := by
  unfold awaitReply at hreply
  split at hreply
  · next target rpc payload hrequest =>
      have hrpc : rpc = .remoteRegister := by
        unfold Asked at hasked
        rw [hrequest, hg] at hasked
        exact (Option.some.inj hasked).symm
      rw [hrpc] at hreply
      exact handleRequest_fixed hfits st.machines target payload hreply
  · cases hreply

theorem serveCommand_reply {machine : UInt64} {self : Nat} {env : CallEnv Regs Rdma}
    (hfits : env.Fits lib) (g : Option RPCId) (st : Session Regs Rdma bufSize)
    (o : KernelOp Regs Rdma) (hasked : Asked g st) :
    exists g', replyNext lib g o (serveCommand lib machine self env o st).1 g' ∧
      Asked g' (serveCommand lib machine self env o st).2 := by
  have hother : replyNext lib g o (serveOn lib machine self env.caller o st).1 g ->
      exists g', replyNext lib g o (serveOn lib machine self env.caller o st).1 g' ∧
        Asked g' (serveOn lib machine self env.caller o st).2 := by
    intro hnext
    refine ⟨g, hnext, ?_⟩
    unfold Asked
    rw [request_serveOn]
    exact hasked
  cases o with
  | syncCall session mySession rpc payload =>
      refine ⟨if env.caller.answer (.syncCall session mySession rpc payload) = true then some rpc
        else none, rfl, ?_⟩
      show _ = Option.map _ (if env.caller.answer (.syncCall session mySession rpc payload) = true
        then some (session.machine, rpc, payload) else none)
      by_cases hsent : env.caller.answer (.syncCall session mySession rpc payload) = true
      · rw [if_pos hsent, if_pos hsent]
        rfl
      · rw [if_neg hsent, if_neg hsent]
        rfl
  | blockOnCaller timeoutUsec =>
      refine ⟨_, ?_, rfl⟩
      intro bytes hbytes hg
      exact awaitReply_fixed hfits _ st hasked hbytes hg
  | _ => exact hother rfl

theorem runCommand_registerRemote {s : Cluster Regs Rdma bufSize} {machine : UInt64} {self : Nat}
    {env : CallEnv Regs Rdma} (hfits : env.Fits lib) {heapBase : UInt64} {machineId : UInt32}
    {result : Int} {st : Session Regs Rdma bufSize}
    (hrun : s.runCommand lib machine self (.registerRemote heapBase machineId) env =
      (.returned result, st)) (hpos : 0 ≤ result) : result = 1048 := by
  have hconf : (ioctrl lib (.registerRemote heapBase machineId)).Conforms (replyProtocol lib)
      FixedResult none := registerRemote_result heapBase machineId none
  have hanswer : forall (g : Option RPCId) (st : Session Regs Rdma bufSize)
      (o : KernelOp Regs Rdma), True -> Asked g st ->
        exists g', replyNext lib g o (serveCommand lib machine self env o st).1 g' ∧
          Asked g' (serveCommand lib machine self env o st).2 := by
    intro g st o _ hasked
    exact serveCommand_reply hfits g st o hasked
  have hstart : Asked none
      ({ machines := s.machines, request := none, read := none } : Session Regs Rdma bufSize) :=
    rfl
  rcases hconf.run hstart hanswer with ⟨g', hpost, _⟩
  unfold Cluster.runCommand at hrun
  rw [hrun] at hpost
  exact hpost result rfl hpos

end Replies

/-!
## A pull that reaches the other machine
-/

section Pulls

variable {lib : KernelLib Regs Rdma} {machine : UInt64} {self : Nat} {env : CallEnv Regs Rdma}

theorem serveCommand_mapping {o : KernelOp Regs Rdma} (ho : o.Mapping)
    (st : Session Regs Rdma bufSize) :
    serveCommand lib machine self env o st = (env.caller.answer o, st) := by
  have hsame : ({ st with machines := Function.update st.machines machine (st.machines machine) } :
      Session Regs Rdma bufSize) = st := by
    rw [Function.update_eq_self]
  cases o <;> first | exact ho.elim | exact Prod.ext rfl hsame

section Connected

variable (hconn : Kernel.Connected lib env.caller.answer) (d : HeapDescriptor Regs Rdma)
variable (st : Session Regs Rdma bufSize)

include hconn

theorem run_fetchAll_connected (m : VMADescriptor) (info : AccessInfo Rdma)
    (addrs : List Nat) :
    (fetchAll d m info addrs).run (serveCommand lib machine self env) st =
      (.returned (), st) := by
  have hconf : (fetchAll d m info addrs).Conforms
      ((callMonitor lib).protocol.restrict KernelOp.Fetching)
      (Ends (Kept (CallState.inside 0 none true))) (CallState.inside 0 none true) :=
    Conforms.restrict (fetchAll_tracked rfl ⟨0, rfl⟩ m info addrs)
      (fetchAll_fetching d m info addrs)
  have hanswer : forall (g : CallState) (st' : Session Regs Rdma bufSize)
      (o : KernelOp Regs Rdma), g.may o ∧ o.Fetching -> g.aborted = false ∧ st' = st ->
        exists g', g' = CallState.after lib g o (serveCommand lib machine self env o st').1 ∧
          g'.aborted = false ∧ (serveCommand lib machine self env o st').2 = st := by
    intro g st' o ho hclean
    rcases hclean with ⟨hclean, hst⟩
    subst hst
    rw [serveCommand_mapping ho.2.mapping]
    have hsurvives : aborts lib g.infoTaken o (env.caller.answer o) = false := by
      cases o with
      | getDcQpKey =>
          rw [hconn.queuePair]
          rfl
      | _ => first | rfl | exact ho.2.elim
    refine ⟨_, rfl, ?_, rfl⟩
    unfold CallState.after
    rw [hsurvives, if_neg (by decide), CallState.aborted_proceed, hclean]
  have hstart : (CallState.inside 0 none true).aborted = false ∧ st = st := ⟨rfl, rfl⟩
  rcases hconf.run hstart hanswer with ⟨g', hends, hclean, hst⟩
  cases hrun : (fetchAll d m info addrs).run (serveCommand lib machine self env) st with
  | mk out st' =>
      rw [hrun] at hends hst
      cases out with
      | returned u => exact Prod.ext rfl hst
      | panicked msg =>
          rw [show CallState.aborted g' = true from hends] at hclean
          cases hclean

omit hconn in
theorem run_keepAlloc_session (m : VMADescriptor) :
    (keepAlloc lib m).run (serveCommand lib machine self env) st = (.returned (), st) := by
  unfold keepAlloc
  by_cases halloc : containsAlloc lib m
  · rw [if_pos halloc]
    simp only [invoke, run_call, serveCommand_mapping (show (KernelOp.setAlloc m).Mapping from
      True.intro), run_ret]
  · rw [if_neg halloc]
    rfl

theorem run_applyVmaEager_connected (info : AccessInfo Rdma) (m : VMADescriptor)
    (next : Option VMADescriptor) :
    (applyVmaEager lib d info m next).run (serveCommand lib machine self env) st =
      (.returned (), st) := by
  unfold applyVmaEager
  simp only [invoke_bind, run_call, serveCommand_mapping (show (KernelOp.mapOneRegion m next).Mapping
    from True.intro)]
  cases hmapped : env.caller.answer (.mapOneRegion m next) with
  | false => rfl
  | true =>
      have haddrs := hconn.mapped m next hmapped
      simp only [run_call, serveCommand_mapping (show (KernelOp.setMixedMap m).Mapping from
        True.intro), run_bind, run_keepAlloc_session]
      rcases eagerFetchVma_eq lib d m info with ⟨hnone, _⟩ | ⟨addrs, _, hfetch⟩
      · rw [hnone] at haddrs
        cases haddrs
      · rw [hfetch]
        exact run_fetchAll_connected hconn d st m info addrs

theorem run_applyTo_connected (eagerFetch : Bool) :
    (applyTo lib d eagerFetch).run (serveCommand lib machine self env) st = (.returned (), st) := by
  unfold applyTo
  generalize d.vma = vmas
  cases eagerFetch with
  | false =>
      rw [if_neg (by decide)]
      induction vmas with
      | nil => rfl
      | cons m rest ih =>
          simp only [applyLazy, applyVmaLazy, run_bind, invoke_bind, run_call,
            serveCommand_mapping (show (KernelOp.mapOneRegion m rest.head?).Mapping from
              True.intro)]
          cases env.caller.answer (.mapOneRegion m rest.head?) with
          | false => exact ih
          | true =>
              simp only [run_keepAlloc_session]
              exact ih
  | true =>
      rcases Option.isSome_iff_exists.mp (hconn.access d.machineInfo) with ⟨info, hinfo⟩
      rw [if_pos rfl]
      simp only [invoke_bind, run_call, serveCommand_mapping
        (show (KernelOp.accessInfoNew d.machineInfo).Mapping from True.intro), hinfo, expect_some,
        ret_bind]
      induction vmas with
      | nil => rfl
      | cons m rest ih =>
          simp only [applyEager, run_bind, run_applyVmaEager_connected hconn]
          exact ih

end Connected

theorem handleRequest_query (hfits : env.Fits lib) (machines : Machines Regs Rdma bufSize)
    (target key : UInt64) :
    handleRequest lib env machines target (lib.usize.encode key) .query =
      (some (match (machines target).service.queryDescriptorBuf key with
        | none => []
        | some (pa, len) =>
            lib.queryReply.encode { pa := pa, sz := UInt64.ofNat len, ready := true }),
        machines) := by
  unfold handleRequest handleQuery
  simp only [lib.usize.decode_encode_nil, Option.getD_some, invoke_bind, run_call, serveOn,
    serve, Function.update_eq_self]
  cases (machines target).service.queryDescriptorBuf key with
  | none => rfl
  | some buf =>
      rcases buf with ⟨pa, len⟩
      simp only [pure_eq, run_ret, sentReply, take_writeHead _ _ hfits.1]

def PullOutcome (lib : KernelLib Regs Rdma) (machines : Machines Regs Rdma bufSize)
    (machine : UInt64) (self : Nat) (key target : UInt64)
    (r : Outcome Int × Session Regs Rdma bufSize) : Prop :=
  match (machines target).service.queryDescriptorBuf key with
  | none => r.1 = .returned (-1)
  | some (pa, len) =>
      match HeapDescriptor.deserialize lib
          (((machines target).pool.bytes pa).take (UInt64.ofNat len).toNat) with
      | .error .reject => r.1 = .returned (-1)
      | .error .abort => r.1 = .panicked addOverflow
      | .ok des => r.1 = .returned 0 ∧ exists info, r.2.machines =
          Function.update machines machine ((machines machine).updateHandler self fun h =>
            { h with publicHeaps := h.publicHeaps ++
              [{ id := key, descriptor := des, accessInfo := info }] })

theorem run_pull_connected (hfits : env.Fits lib) (hconn : Kernel.Connected lib env.caller.answer)
    (machines : Machines Regs Rdma bufSize) (key target : UInt64) (eagerFetch : Bool) :
    PullOutcome lib machines machine self key target
      ((syscallRmap lib key target eagerFetch).run (serveCommand lib machine self env)
        { machines := machines, request := none, read := none }) := by
  unfold syscallRmap lockCpu
  simp only [invoke_bind, run_call, serveCommand, serveOn, serve, Function.update_eq_self,
    hconn.cpu, hconn.caller, hconn.sent, expect_some, ret_bind, if_true, awaitReply,
    hconn.replied, handleRequest_query hfits, hconn.received]
  unfold PullOutcome
  cases (machines target).service.queryDescriptorBuf key with
  | none =>
      simp only [decode_queryReply_nil lib]
      rfl
  | some buf =>
      rcases buf with ⟨pa, len⟩
      simp only [lib.queryReply.decode_encode_nil, pullReplied, remoteDescriptorFetch,
        not_true_eq_false, if_false, invoke_bind, call_bind, run_call, serveCommand, serveOn, serve,
        Function.update_eq_self, hconn.session, hconn.queuePair, hconn.posted, expect_some,
        ret_bind]
      rcases hconn.completed (10 * timeoutUsec) with ⟨bytes, hdone⟩
      simp only [completeRead, hdone, pure_eq, ret_bind]
      unfold pullFetched
      cases HeapDescriptor.deserialize lib
        (((machines target).pool.bytes pa).take (UInt64.ofNat len).toNat) with
      | error stop => cases stop <;> rfl
      | ok des =>
          rcases Option.isSome_iff_exists.mp (hconn.access des.machineInfo) with ⟨info, hinfo⟩
          simp only [invoke_bind, run_call, serveCommand, serveOn, serve, Function.update_eq_self,
            hinfo, run_bind, run_applyTo_connected hconn]
          exact ⟨rfl, info, rfl⟩

theorem Consumer.heaps_push {p : Consumer Regs Rdma} {machines : Machines Regs Rdma bufSize}
    (hopen : ((machines p.machine).handlers p.self).isSome)
    (heap : HeapDataStruct Regs Rdma) :
    p.heaps (Function.update machines p.machine ((machines p.machine).updateHandler p.self
      fun h => { h with publicHeaps := h.publicHeaps ++ [heap] })) =
        p.heaps machines ++ [heap] := by
  rcases Option.isSome_iff_exists.mp hopen with ⟨h, hh⟩
  unfold Consumer.heaps ModuleState.updateHandler ModuleState.setHandler
  simp only [Function.update_self, hh, Option.map_some, Option.getD_some]

theorem pullsHeap_iff {p : Consumer Regs Rdma} {s : Cluster Regs Rdma bufSize}
    (hconn : p.Connected lib s) (hint : Int) (machineId : UInt32)
    (d : HeapDescriptor Regs Rdma) :
    p.PullsHeap lib s hint machineId d <->
      s.Serves lib machineId.toUInt64 (UInt32.ofNat hint.toNat).toUInt64 d := by
  have houtcome : PullOutcome lib s.machines p.machine p.self (UInt32.ofNat hint.toNat).toUInt64
      machineId.toUInt64 (s.runCommand lib p.machine p.self
        (.pull (UInt32.ofNat hint.toNat) machineId p.eagerFetch) p.env) :=
    run_pull_connected hconn.2.1 hconn.2.2 s.machines _ _ p.eagerFetch
  unfold PullOutcome ShadowHeapService.queryDescriptorBuf at houtcome
  unfold Consumer.PullsHeap Cluster.Serves ModuleState.bundle
  cases hbundle : (s.machines machineId.toUInt64).service.registeredHeap.lookup
      (UInt32.ofNat hint.toNat).toUInt64 with
  | none =>
      rw [hbundle] at houtcome
      constructor
      · intro h
        rw [show _ = Outcome.returned (-1) from houtcome] at h
        cases h.1
      · intro h
        rcases h with ⟨b, hb, _⟩
        cases hb
  | some b =>
      rw [hbundle] at houtcome
      simp only [Option.map_some] at houtcome
      cases hdes : HeapDescriptor.deserialize lib
          (((s.machines machineId.toUInt64).pool.bytes b.serializedBuf).take
            (UInt64.ofNat b.serializedBufLen).toNat) with
      | error stop =>
          rw [hdes] at houtcome
          constructor
          · intro h
            cases stop with
            | reject =>
                rw [show _ = Outcome.returned (-1) from houtcome] at h
                cases h.1
            | abort =>
                rw [show _ = Outcome.panicked addOverflow from houtcome] at h
                cases h.1
          · intro h
            rcases h with ⟨b', hb', hok⟩
            cases hb'
            rw [hdes] at hok
            cases hok
      | ok des =>
          rw [hdes] at houtcome
          rcases houtcome with ⟨hzero, info, hmachines⟩
          rw [hmachines, Consumer.heaps_push hconn.1]
          constructor
          · intro h
            rcases h.2 with ⟨heap, hheap, happend⟩
            have hsame := List.append_cancel_left happend
            cases hsame
            exact ⟨b, rfl, by rw [hdes, ← hheap]⟩
          · intro h
            rcases h with ⟨b', hb', hok⟩
            cases hb'
            rw [hdes] at hok
            cases hok
            exact ⟨hzero, _, rfl, rfl⟩

end Pulls

/-!
## Runs
-/

section Runs

variable {lib : KernelLib Regs Rdma} {s s' : Cluster Regs Rdma bufSize}

def AllFixed (s : Cluster Regs Rdma bufSize) : Prop :=
  forall r, r ∈ s.remotes -> r.hint = 1048

theorem AllFixed.note {machine : UInt64} {env : CallEnv Regs Rdma} {result : Int} {req : Request}
    (h : AllFixed s)
    (hresult : forall heapBase machineId, req = .registerRemote heapBase machineId ->
      0 ≤ result -> result = 1048) : AllFixed (s.note machine env result req) := by
  cases req with
  | register heapBase => exact h
  | pull heapHint machineId eagerFetch => exact h
  | registerRemote heapBase machineId =>
      simp only [Cluster.note]
      split
      · split
        · next hpos =>
            intro r hr
            cases List.mem_append.mp hr with
            | inl hold => exact h r hold
            | inr hnew =>
                rw [List.mem_singleton.mp hnew]
                exact hresult heapBase machineId rfl hpos
        · exact h
      · exact h

theorem AllFixed.step (h : AllFixed s) {a : ClusterAct Regs Rdma} {now : List Unit}
    (hstep : s.step lib a = some (s', now)) : AllFixed s' := by
  cases a with
  | openHandle machine self =>
      simp only [Cluster.step] at hstep
      split at hstep
      · cases hstep
      · cases hstep
        exact h
  | command machine self req env =>
      simp only [Cluster.step] at hstep
      split at hstep
      · next hguard =>
          cases hrun : s.runCommand lib machine self req env with
          | mk out st =>
              rw [hrun] at hstep
              cases out with
              | panicked msg =>
                  cases hstep
                  exact h
              | returned result =>
                  cases hstep
                  apply AllFixed.note (show AllFixed { s with machines := st.machines } from h)
                  intro heapBase machineId hreq hpos
                  subst hreq
                  exact runCommand_registerRemote hguard.2.1 hrun hpos
      · cases hstep
  | closeHandle machine self env =>
      simp only [Cluster.step] at hstep
      split at hstep
      · cases hstep
        exact h
      · cases hstep

end Runs

/-- In every state that is reached, the hints that remote registrations returned can be
used exactly when the heaps that were registered at a machine are one heap, and the
machine has, without ioctl-0, this heap registered under 1048. -/
theorem hints_usable_iff (lib : KernelLib Regs Rdma) (pool : Pool bufSize)
    {acts : List (ClusterAct Regs Rdma)} {s : Cluster Regs Rdma bufSize} {trace : List Unit}
    (hrun : runFrom (Cluster.step lib) (Cluster.init pool) acts = some (s, trace)) :
    HintsUsable lib s <-> FixedHintServes lib s := by
  have hstep : forall (s : Cluster Regs Rdma bufSize) a s' now,
      AllFixed s -> s.step lib a = some (s', now) -> AllFixed s' :=
    fun _ _ _ _ h hs => h.step hs
  have hinit : AllFixed (Cluster.init pool : Cluster Regs Rdma bufSize) := by
    intro r hr
    cases hr
  have hfixed : AllFixed s := runFrom_preserves hstep hinit hrun
  have hserves : forall r, r ∈ s.remotes -> forall p : Consumer Regs Rdma, p.Connected lib s ->
      (p.PullsHeap lib s r.hint r.machineId r.descriptor <->
        s.Serves lib r.machineId.toUInt64 fixedHint.toUInt64 r.descriptor) := by
    intro r hr p hp
    rw [hfixed r hr]
    exact pullsHeap_iff hp 1048 r.machineId r.descriptor
  constructor
  · intro h
    constructor
    · intro hsome r hr
      rcases hsome with ⟨p, hp⟩
      exact (hserves r hr p hp).mp (h.pulls r hr p hp)
    · intro r r' hr hr' hmachine
      by_contra hne
      apply h.distinct r r' hr hr' hmachine hne
      rw [hfixed r hr, hfixed r' hr']
    · intro r hr
      have hfresh := h.fresh r hr
      rw [hfixed r hr] at hfresh
      exact hfresh
  · intro h
    constructor
    · intro r hr p hp
      exact (hserves r hr p hp).mpr (h.serves ⟨p, hp⟩ r hr)
    · intro r r' hr hr' hmachine hne
      exact absurd (h.same r r' hr hr' hmachine) hne
    · intro r hr
      rw [hfixed r hr]
      exact h.fresh r hr

def smoothEnv : CallEnv UInt64 UInt64 where
  caller := smallSurroundings (some []) 0
  worker := smallSurroundings none 0
  output := List.replicate 64 0

theorem smoothEnv_connected : Kernel.Connected plainLib smoothEnv.caller.answer where
  cpu := by decide
  mapped m next hmapped := by
    rw [fetchAddrs_of_le plainLib (of_decide_eq_true hmapped)]
    rfl
  caller _ := rfl
  sent _ _ _ _ := rfl
  replied _ := rfl
  received := rfl
  session _ := rfl
  queuePair := rfl
  posted _ _ _ := rfl
  completed _ := ⟨[], rfl⟩
  access _ := rfl

/-- A process of machine 1 registers its heap at machine 2, and one of machine 3 opens a
handle. -/
def registerThenOpen : List (ClusterAct UInt64 UInt64) :=
  [.openHandle 1 0, .command 1 0 (.registerRemote 4096 2) smoothEnv, .openHandle 3 0]

def thirdMachine : Consumer UInt64 UInt64 where
  machine := 3
  self := 0
  eagerFetch := false
  env := smoothEnv

/-- What is seen of a state: the hints returned, whether the process of machine 3 has a
handle, and how its pull of 1048 from machine 2 ends. -/
def observed (s : Cluster UInt64 UInt64 128) : List (Int × UInt32) × Bool × Outcome Int :=
  (s.remotes.map fun r => (r.hint, r.machineId), ((s.machines 3).handlers 0).isSome,
    (s.runCommand plainLib 3 0 (.pull (UInt32.ofNat (1048 : Int).toNat) 2 false) smoothEnv).1)

theorem observed_registerThenOpen :
    (runFrom (Cluster.step plainLib) (Cluster.init (Pool.zeroed 128)) registerThenOpen).map
      (fun r => observed r.1) = some ([(1048, 2)], true, .returned (-1)) := by
  decide +kernel

theorem hints_usable_iff_registered :
    exists s trace, runFrom (Cluster.step plainLib) (Cluster.init (Pool.zeroed 128))
      registerThenOpen = some (s, trace) ∧
        s.remotes.map (fun r => (r.hint, r.machineId)) = [(1048, 2)] ∧
        (HintsUsable plainLib s <-> FixedHintServes plainLib s) := by
  rcases Option.map_eq_some_iff.mp observed_registerThenOpen with ⟨⟨s, trace⟩, hrun, hs⟩
  exact ⟨s, trace, hrun, congrArg Prod.fst hs,
    hints_usable_iff plainLib (Pool.zeroed 128) hrun⟩

theorem not_hints_usable_registered :
    ¬ forall (acts : List (ClusterAct UInt64 UInt64)) s trace,
      runFrom (Cluster.step plainLib) (Cluster.init (Pool.zeroed 128)) acts = some (s, trace) ->
        HintsUsable plainLib s := by
  intro h
  rcases Option.map_eq_some_iff.mp observed_registerThenOpen with ⟨⟨s, trace⟩, hrun, hs⟩
  have husable : HintsUsable plainLib s := h registerThenOpen s trace hrun
  have hremotes : s.remotes.map (fun r => (r.hint, r.machineId)) = [(1048, 2)] :=
    congrArg Prod.fst hs
  have hopen : ((s.machines 3).handlers 0).isSome = true := congrArg (fun o => o.2.1) hs
  have hpull : (s.runCommand plainLib 3 0 (.pull (UInt32.ofNat (1048 : Int).toNat) 2 false)
      smoothEnv).1 = .returned (-1) := congrArg (fun o => o.2.2) hs
  rcases List.map_eq_cons_iff.mp hremotes with ⟨r, rest, hcons, hr, _⟩
  have hin : r ∈ s.remotes := by
    rw [hcons]
    exact List.mem_cons_self
  have hconn : thirdMachine.Connected plainLib s := ⟨hopen, by decide, smoothEnv_connected⟩
  have hzero := (husable.pulls r hin thirdMachine hconn).1
  rw [show r.hint = 1048 from congrArg Prod.fst hr,
    show r.machineId = 2 from congrArg Prod.snd hr] at hzero
  have hfails : Outcome.returned (-1) = (Outcome.returned 0 : Outcome Int) := hpull.symm.trans hzero
  cases hfails

end Kernel
end Dmerge
