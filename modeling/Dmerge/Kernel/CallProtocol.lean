import Dmerge.Kernel.PullCalls

/-!
# The protocol of a remote call

Two commands call another machine, a pull and a remote registration.  Both take
the lock of their CPU, send one request, wait for one reply, and give the lock
back.  A pull then reads the buffer that its reply names.
-/

namespace Dmerge
namespace Kernel

open Foundation Memory Descriptors Producer Prog

variable {Regs Rdma : Type}

inductive CallPhase where
  | outside
  | held
  | asked
  | answered (reply : Bytes)
  | failed
  /-- The lock is given back, after a reply was taken or without one. -/
  | released (answered : Bool)
  deriving DecidableEq

def CallPhase.Holds : CallPhase -> Prop
  | .outside | .released _ => False
  | _ => True

def Asks (lib : KernelLib Regs Rdma) (req : Request) (machine : UInt64) (rpc : RPCId)
    (payload : Bytes) : Prop :=
  match req with
  | .register _ => False
  | .pull heapHint machineId _ =>
      machine = machineId.toUInt64 ∧ rpc = .query ∧
        payload = lib.usize.encode heapHint.toUInt64
  | .registerRemote _ machineId => machine = machineId.toUInt64 ∧ rpc = .remoteRegister

def KernelOp.OffWire : KernelOp Regs Rdma -> Prop
  | .lock _ | .unlock _ | .syncCall _ _ _ _ | .blockOnCaller _ | .postRead _ _ _
  | .pushPublicHeap _ => False
  | _ => True

def callProtocol (lib : KernelLib Regs Rdma) (req : Request) :
    Protocol (kernelSig Regs Rdma) where
  State := CallPhase
  may g
    | .lock _ => g = .outside
    | .unlock _ => g = .failed ∨ exists reply, g = .answered reply
    | .syncCall session _ rpc payload => g = .held ∧ Asks lib req session.machine rpc payload
    | .blockOnCaller _ => g = .asked
    | .postRead session pa sz => exists reply d heapHint machineId eagerFetch,
        g = .answered reply ∧ lib.queryReply.decode reply = some d ∧ pa = d.pa ∧ sz = d.sz ∧
          req = .pull heapHint machineId eagerFetch ∧ session.machine = machineId.toUInt64
    | .pushPublicHeap heap => exists reply heapHint machineId eagerFetch,
        g = .answered reply ∧ req = .pull heapHint machineId eagerFetch ∧
          heap.id = heapHint.toUInt64
    | _ => True
  next g
    | .lock _, _, g' => g' = .held
    | .unlock _, _, g' => g' = .released (g ≠ .failed)
    | .syncCall _ _ _ _, sent, g' => g' = if sent = true then .asked else .failed
    | .blockOnCaller _, none, g' => g' = .failed
    | .blockOnCaller _, some reply, g' => g' = .answered reply
    | _, _, g' => g' = g

/-- A command that returns has given the lock back, and a pull that returns 0 has
taken a reply. -/
def CallEnds (req : Request) (g : CallPhase) (out : Outcome Int) : Prop :=
  forall result, out = .returned result ->
    ¬ g.Holds ∧ forall heapHint machineId eagerFetch,
      req = .pull heapHint machineId eagerFetch -> result = 0 -> g = .released true

section Calls

variable {lib : KernelLib Regs Rdma} {req : Request} {g : CallPhase}

theorem call_offWire {o : KernelOp Regs Rdma} {k : o.Res -> KProg Regs Rdma Int}
    (ho : o.OffWire)
    (hk : forall r, (k r).Conforms (callProtocol lib req) (CallEnds req) g) :
    (Prog.call o k : KProg Regs Rdma Int).Conforms (callProtocol lib req) (CallEnds req) g := by
  apply Conforms.still
  · cases o <;> first | exact True.intro | exact ho.elim
  · intro r g' hnext
    cases o <;> first | exact hnext | exact ho.elim
  · intro r _ _
    exact hk r

theorem call_panic (msg : String) :
    (Prog.panic msg : KProg Regs Rdma Int).Conforms (callProtocol lib req) (CallEnds req) g := by
  intro result hend
  cases hend

theorem call_expect {alpha : Type} {msg : String} {a : Option alpha}
    {k : alpha -> KProg Regs Rdma Int}
    (hk : forall x, (k x).Conforms (callProtocol lib req) (CallEnds req) g) :
    (Prog.expect msg a >>= k).Conforms (callProtocol lib req) (CallEnds req) g := by
  apply Conforms.expect
  · intro result hend
    cases hend
  · exact fun x _ => hk x

theorem call_unlockFail (cpu : CpuId) (hg : g = .failed ∨ exists reply, g = .answered reply) :
    (unlockFail cpu : KProg Regs Rdma Int).Conforms (callProtocol lib req) (CallEnds req) g := by
  refine ⟨hg, fun _ g' hnext result hend => ?_⟩
  rw [show g' = .released _ from hnext]
  cases hend
  refine ⟨id, ?_⟩
  intro heapHint machineId eagerFetch _ hzero
  cases hzero

theorem call_applyTo (des : HeapDescriptor Regs Rdma) (eagerFetch : Bool) :
    (applyTo lib des eagerFetch).Conforms (callProtocol lib req) (fun g' _ => g' = g) g := by
  refine (applyTo_mapping lib des eagerFetch).conforms ?_ ?_ _
  · intro g o ho
    cases o <;> first | exact True.intro | exact ho.elim
  · intro g o r g' ho hnext
    cases o <;> first | exact hnext | exact ho.elim

theorem call_lock {cpu : CpuId} {k : Unit -> KProg Regs Rdma Int}
    (hk : (k ()).Conforms (callProtocol lib req) (CallEnds req) .held) :
    (lockCpu lib cpu >>= k : KProg Regs Rdma Int).Conforms (callProtocol lib req)
      (CallEnds req) .outside := by
  rcases lockCpu_eq lib cpu with ⟨_, hlock⟩ | ⟨_, hlock⟩
  · rw [hlock]
    refine ⟨rfl, fun _ g' hnext => ?_⟩
    rw [show g' = .held from hnext]
    exact hk
  · rw [hlock]
    exact call_offWire True.intro fun _ => call_panic indexOutOfBounds

theorem call_send {session mySession : SessionId} {rpc : RPCId} {payload : Bytes}
    {k : Bool -> KProg Regs Rdma Int} (hasks : Asks lib req session.machine rpc payload)
    (hfail : (k false).Conforms (callProtocol lib req) (CallEnds req) .failed)
    (hk : (k true).Conforms (callProtocol lib req) (CallEnds req) .asked) :
    (Prog.call (.syncCall session mySession rpc payload) k : KProg Regs Rdma Int).Conforms
      (callProtocol lib req) (CallEnds req) .held := by
  refine ⟨⟨rfl, hasks⟩, fun sent g' hnext => ?_⟩
  cases sent with
  | false =>
      rw [show g' = .failed from hnext]
      exact hfail
  | true =>
      rw [show g' = .asked from hnext]
      exact hk

theorem call_wait {timeoutUsec : Nat} {k : Option Bytes -> KProg Regs Rdma Int}
    (hfail : (k none).Conforms (callProtocol lib req) (CallEnds req) .failed)
    (hk : forall reply, (k (some reply)).Conforms (callProtocol lib req) (CallEnds req)
      (.answered reply)) :
    (Prog.call (.blockOnCaller timeoutUsec) k : KProg Regs Rdma Int).Conforms
      (callProtocol lib req) (CallEnds req) .asked := by
  refine ⟨rfl, fun reply g' hnext => ?_⟩
  cases reply with
  | none =>
      rw [show g' = .failed from hnext]
      exact hfail
  | some reply =>
      rw [show g' = .answered reply from hnext]
      exact hk reply

end Calls

/-!
## The commands follow the protocol
-/

section Pulls

variable {lib : KernelLib Regs Rdma} {heapHint machineId : UInt32} {eagerFetch : Bool}
variable {reply : Bytes}

theorem pullFetched_call (cpu : CpuId) (descBuf : Bytes) :
    (pullFetched lib heapHint.toUInt64 cpu eagerFetch descBuf).Conforms
      (callProtocol lib (.pull heapHint machineId eagerFetch))
      (CallEnds (.pull heapHint machineId eagerFetch)) (.answered reply) := by
  unfold pullFetched
  cases HeapDescriptor.deserialize lib descBuf with
  | error stop =>
      cases stop with
      | abort => exact call_panic _
      | reject => exact call_unlockFail cpu (Or.inr ⟨reply, rfl⟩)
  | ok des =>
      refine call_offWire True.intro fun info => ?_
      cases info with
      | none => exact call_unlockFail cpu (Or.inr ⟨reply, rfl⟩)
      | some info =>
          apply (call_applyTo des eagerFetch).bind
          · intro g _ hg
            rw [hg]
            refine ⟨⟨reply, heapHint, machineId, eagerFetch, rfl, rfl, rfl⟩, fun _ g' hnext => ?_⟩
            rw [show g' = .answered reply from hnext]
            refine ⟨Or.inr ⟨reply, rfl⟩, fun _ g' hnext result _ => ?_⟩
            rw [show g' = .released true from hnext]
            exact ⟨id, fun _ _ _ _ _ => rfl⟩
          · intro g msg _ result hend
            cases hend

theorem pullReplied_call (cpu : CpuId) {session : SessionId} {d : HeapDescriptorQueryReply}
    (hsession : session.machine = machineId.toUInt64)
    (hreply : lib.queryReply.decode reply = some d) :
    (pullReplied lib heapHint.toUInt64 cpu session eagerFetch d).Conforms
      (callProtocol lib (.pull heapHint machineId eagerFetch))
      (CallEnds (.pull heapHint machineId eagerFetch)) (.answered reply) := by
  unfold pullReplied remoteDescriptorFetch
  by_cases hready : ¬ d.ready
  · rw [if_pos hready]
    exact call_unlockFail cpu (Or.inr ⟨reply, rfl⟩)
  · rw [if_neg hready]
    simp only [invoke_bind, Prog.call_bind, Prog.bind_assoc]
    refine call_offWire True.intro fun ss => call_expect fun _ => ?_
    refine call_offWire True.intro fun qp => call_expect fun _ => ?_
    constructor
    · exact ⟨reply, d, heapHint, machineId, eagerFetch, rfl, hreply, rfl, rfl, rfl, hsession⟩
    · intro posted g' hnext
      rw [show g' = .answered reply from hnext]
      cases posted with
      | false => exact call_unlockFail cpu (Or.inr ⟨reply, rfl⟩)
      | true =>
          refine call_offWire True.intro fun completion => ?_
          cases completion with
          | failed => exact call_unlockFail cpu (Or.inr ⟨reply, rfl⟩)
          | elapsed => exact call_panic _
          | done descBuf => exact pullFetched_call cpu descBuf

theorem pull_call :
    (ioctrl lib (.pull heapHint machineId eagerFetch)).Conforms
      (callProtocol lib (.pull heapHint machineId eagerFetch))
      (CallEnds (.pull heapHint machineId eagerFetch)) .outside := by
  refine call_offWire True.intro fun cpu => call_lock ?_
  refine call_offWire True.intro fun caller => call_expect fun _ => ?_
  refine call_offWire True.intro fun machine => ?_
  apply call_send
  · exact ⟨rfl, rfl, rfl⟩
  · exact call_unlockFail cpu (Or.inl rfl)
  · apply call_wait
    · exact call_unlockFail cpu (Or.inl rfl)
    · intro reply
      refine call_offWire True.intro fun buf => call_expect fun _ => ?_
      cases hreply : lib.queryReply.decode reply with
      | none => exact call_unlockFail cpu (Or.inr ⟨reply, rfl⟩)
      | some d => exact pullReplied_call cpu rfl hreply

end Pulls

section Registrations

variable {lib : KernelLib Regs Rdma} {heapBase : UInt64} {machineId : UInt32}

theorem registerHeap_call {req : Request} {key : UInt64} {heapStart : Nat}
    {k : Unit -> KProg Regs Rdma Int}
    (hk : (k ()).Conforms (callProtocol lib req) (CallEnds req) .outside) :
    (registerHeap key heapStart >>= k).Conforms (callProtocol lib req) (CallEnds req)
      .outside := by
  unfold registerHeap
  simp only [invoke_bind, call_bind]
  refine call_offWire True.intro fun target => ?_
  cases target with
  | none => exact call_panic _
  | some rdmaMeta => exact call_offWire True.intro fun _ => hk

theorem remoteRegisterCall_call (localHint : UInt64) (buf : UInt64 × Nat) :
    (remoteRegisterCall lib localHint machineId.toUInt64 buf).Conforms
      (callProtocol lib (.registerRemote heapBase machineId))
      (CallEnds (.registerRemote heapBase machineId)) .outside := by
  unfold remoteRegisterCall
  simp only [invoke_bind]
  refine call_offWire True.intro fun source => ?_
  refine call_offWire True.intro fun cpu => call_lock ?_
  refine call_offWire True.intro fun caller => call_expect fun _ => ?_
  refine call_offWire True.intro fun machine => ?_
  apply call_send
  · exact ⟨rfl, rfl⟩
  · exact call_unlockFail cpu (Or.inl rfl)
  · apply call_wait
    · exact call_unlockFail cpu (Or.inl rfl)
    · intro reply
      refine call_offWire True.intro fun recv => call_expect fun _ => ?_
      cases lib.registerReply.decode reply with
      | none => exact call_unlockFail cpu (Or.inr ⟨reply, rfl⟩)
      | some registerRemoteReply =>
          refine ⟨Or.inr ⟨reply, rfl⟩, fun _ g' hnext => ?_⟩
          rw [show g' = .released true from hnext]
          refine call_offWire True.intro fun _ result _ => ⟨id, ?_⟩
          intro heapHint machineId eagerFetch hreq
          cases hreq

theorem registerRemote_call :
    (ioctrl lib (.registerRemote heapBase machineId)).Conforms
      (callProtocol lib (.registerRemote heapBase machineId))
      (CallEnds (.registerRemote heapBase machineId)) .outside := by
  unfold ioctrl
  simp only [invoke_bind]
  refine call_offWire True.intro fun issued => call_expect fun key => ?_
  unfold syscallRegisterRemoteHeap
  apply registerHeap_call
  simp only [invoke_bind]
  refine call_offWire True.intro fun buf => ?_
  cases buf with
  | none =>
      refine fun result _ => ⟨id, ?_⟩
      intro heapHint machineId eagerFetch hreq
      cases hreq
  | some buf => exact remoteRegisterCall_call key buf

theorem register_call :
    (ioctrl lib (.register heapBase)).Conforms (callProtocol lib (.register heapBase))
      (CallEnds (.register heapBase)) .outside := by
  unfold ioctrl
  simp only [invoke_bind]
  refine call_offWire True.intro fun current => ?_
  cases current with
  | some hint =>
      refine fun result _ => ⟨id, ?_⟩
      intro heapHint machineId eagerFetch hreq
      cases hreq
  | none =>
      refine call_offWire True.intro fun issued => call_expect fun key => ?_
      unfold syscallRegisterMem
      rw [bind_assoc]
      apply registerHeap_call
      refine call_offWire True.intro fun _ result _ => ⟨id, ?_⟩
      intro heapHint machineId eagerFetch hreq
      cases hreq

end Registrations

theorem ioctrl_call (lib : KernelLib Regs Rdma) (req : Request) :
    (ioctrl lib req).Conforms (callProtocol lib req) (CallEnds req) .outside := by
  cases req with
  | register heapBase => exact register_call
  | pull heapHint machineId eagerFetch => exact pull_call
  | registerRemote heapBase machineId => exact registerRemote_call

end Kernel
end Dmerge
