import Dmerge.Kernel.PullCalls

/-!
# The protocol of a pull

The calls of a pull that leave the machine or change the handle come in a fixed
order: the query is sent, its reply is taken, the buffer that the reply names is
read, and the descriptor decoded from it is pushed.  The protocol records what
each of these calls got, so the result of a pull can be traced back to them.
-/

namespace Dmerge
namespace Kernel

open Foundation Memory Descriptors Producer Prog

variable {Regs Rdma : Type}

inductive PullPhase (Regs Rdma : Type) where
  | fresh
  | asked
  | replied (reply : Bytes)
  | posted (d : HeapDescriptorQueryReply)
  | fetched (descBuf : Bytes)
  | pushed (heap : HeapDataStruct Regs Rdma)
  | failed

def KernelOp.Local : KernelOp Regs Rdma -> Prop
  | .getCallingCpuId | .globalLocks | .lock _ | .unlock _ | .getGlobalCaller _ | .getMacId
  | .registerRecvBuf | .getSs _ => True
  | o => o.Mapping

def pullProtocol (lib : KernelLib Regs Rdma) (hint machineId : UInt64) :
    Protocol (kernelSig Regs Rdma) where
  State := PullPhase Regs Rdma
  may g
    | .syncCall session _ rpc payload =>
        g = .fresh ∧ session.machine = machineId ∧ rpc = .query ∧
          payload = lib.usize.encode hint
    | .blockOnCaller _ => g = .asked
    | .postRead _ pa sz => exists reply d,
        g = .replied reply ∧ lib.queryReply.decode reply = some d ∧ d.ready = true ∧
          pa = d.pa ∧ sz = d.sz
    | .blockOnRead _ => exists d, g = .posted d
    | .pushPublicHeap heap => exists descBuf,
        g = .fetched descBuf ∧
          HeapDescriptor.deserialize lib descBuf = .ok heap.descriptor ∧ heap.id = hint
    | o => o.Local
  next g
    | .syncCall _ _ _ _, sent, g' => g' = if sent = true then .asked else .failed
    | .blockOnCaller _, none, g' => g' = .failed
    | .blockOnCaller _, some reply, g' => g' = .replied reply
    | .postRead _ pa sz, posted, g' =>
        g' = if posted = true then .posted { pa := pa, sz := sz, ready := true } else .failed
    | .blockOnRead _, .done descBuf, g' => g' = .fetched descBuf
    | .blockOnRead _, _, g' => g' = .failed
    | .pushPublicHeap heap, _, g' => g' = .pushed heap
    | _, _, g' => g' = g

def PullEnds (g : PullPhase Regs Rdma) (out : Outcome Int) : Prop :=
  out = .returned 0 -> exists heap, g = .pushed heap

section Conformance

variable {lib : KernelLib Regs Rdma} {hint machineId : UInt64} {g : PullPhase Regs Rdma}

theorem pull_local {o : KernelOp Regs Rdma} {k : o.Res -> KProg Regs Rdma Int}
    (ho : o.Local)
    (hk : forall r, (k r).Conforms (pullProtocol lib hint machineId) PullEnds g) :
    (Prog.call o k : KProg Regs Rdma Int).Conforms (pullProtocol lib hint machineId) PullEnds g := by
  apply Conforms.still
  · cases o <;> first | exact ho | exact ho.elim
  · intro r g' hnext
    cases o <;> first | exact hnext | exact ho.elim
  · intro r _ _
    exact hk r

theorem pull_expect {alpha : Type} {msg : String} {a : Option alpha}
    {k : alpha -> KProg Regs Rdma Int}
    (hk : forall x, (k x).Conforms (pullProtocol lib hint machineId) PullEnds g) :
    (Prog.expect msg a >>= k).Conforms (pullProtocol lib hint machineId) PullEnds g := by
  apply Conforms.expect
  · intro hend
    cases hend
  · exact fun x _ => hk x

theorem pull_unlockFail (cpu : CpuId) :
    (unlockFail cpu : KProg Regs Rdma Int).Conforms (pullProtocol lib hint machineId) PullEnds g := by
  refine pull_local True.intro fun _ hend => ?_
  cases hend

theorem pull_applyTo (des : HeapDescriptor Regs Rdma) (eagerFetch : Bool) :
    (applyTo lib des eagerFetch).Conforms (pullProtocol lib hint machineId) (fun g' _ => g' = g) g := by
  refine (applyTo_mapping lib des eagerFetch).conforms ?_ ?_ _
  · intro g o ho
    cases o <;> first | exact ho | exact ho.elim
  · intro g o r g' ho hnext
    cases o <;> first | exact hnext | exact ho.elim

theorem pull_fetched (cpu : CpuId) (eagerFetch : Bool) (descBuf : Bytes) :
    (pullFetched lib hint cpu eagerFetch descBuf).Conforms (pullProtocol lib hint machineId) PullEnds
      (.fetched descBuf) := by
  unfold pullFetched
  cases hdes : HeapDescriptor.deserialize lib descBuf with
  | error stop =>
      cases stop with
      | abort =>
          intro hend
          cases hend
      | reject => exact pull_unlockFail cpu
  | ok des =>
      refine pull_local True.intro fun info => ?_
      cases info with
      | none => exact pull_unlockFail cpu
      | some info =>
          apply (pull_applyTo des eagerFetch).bind
          · intro g _ hg
            rw [hg]
            constructor
            · exact ⟨descBuf, rfl, hdes, rfl⟩
            · intro _ g' hnext
              rw [show g' = _ from hnext]
              exact pull_local True.intro fun _ _ => ⟨_, rfl⟩
          · intro g msg _ hend
            cases hend

theorem pull_replied (cpu : CpuId) (session : SessionId) (eagerFetch : Bool) {reply : Bytes}
    {d : HeapDescriptorQueryReply} (hreply : lib.queryReply.decode reply = some d) :
    (pullReplied lib hint cpu session eagerFetch d).Conforms (pullProtocol lib hint machineId) PullEnds
      (.replied reply) := by
  unfold pullReplied remoteDescriptorFetch
  by_cases hready : ¬ d.ready
  · rw [if_pos hready]
    exact pull_unlockFail cpu
  · rw [if_neg hready]
    simp only [invoke_bind, Prog.call_bind, Prog.bind_assoc]
    refine pull_local True.intro fun ss => pull_expect fun _ => ?_
    refine pull_local True.intro fun qp => pull_expect fun _ => ?_
    constructor
    · exact ⟨reply, d, rfl, hreply, not_not.mp hready, rfl, rfl⟩
    · intro posted g' hnext
      cases posted with
      | false =>
          rw [show g' = .failed from hnext]
          exact pull_unlockFail cpu
      | true =>
          rw [show g' = .posted { pa := d.pa, sz := d.sz, ready := true } from hnext]
          constructor
          · exact ⟨_, rfl⟩
          · intro completion g' hnext
            cases completion with
            | failed =>
                rw [show g' = .failed from hnext]
                exact pull_unlockFail cpu
            | elapsed =>
                intro hend
                cases hend
            | done descBuf =>
                rw [show g' = .fetched descBuf from hnext]
                exact pull_fetched cpu eagerFetch descBuf

theorem pull_lock {cpu : CpuId} {k : Unit -> KProg Regs Rdma Int} {g : PullPhase Regs Rdma}
    (hk : (k ()).Conforms (pullProtocol lib hint machineId) PullEnds g) :
    (lockCpu lib cpu >>= k : KProg Regs Rdma Int).Conforms (pullProtocol lib hint machineId)
      PullEnds g := by
  rcases lockCpu_eq lib cpu with ⟨_, hlock⟩ | ⟨_, hlock⟩
  · rw [hlock]
    exact pull_local True.intro fun _ => hk
  · rw [hlock]
    refine pull_local True.intro fun _ hend => ?_
    cases hend

theorem syscallRmap_conforms (eagerFetch : Bool) :
    (syscallRmap lib hint machineId eagerFetch).Conforms (pullProtocol lib hint machineId) PullEnds
      .fresh := by
  refine pull_local True.intro fun cpu => ?_
  refine pull_lock ?_
  refine pull_local True.intro fun caller => pull_expect fun _ => ?_
  refine pull_local True.intro fun machine => ?_
  constructor
  · exact ⟨rfl, rfl, rfl, rfl⟩
  · intro sent g' hnext
    cases sent with
    | false =>
        rw [show g' = .failed from hnext]
        exact pull_unlockFail cpu
    | true =>
        rw [show g' = .asked from hnext]
        constructor
        · exact rfl
        · intro reply g' hnext
          cases reply with
          | none =>
              rw [show g' = .failed from hnext]
              exact pull_unlockFail cpu
          | some reply =>
              rw [show g' = .replied reply from hnext]
              refine pull_local True.intro fun buf => pull_expect fun _ => ?_
              cases hreply : lib.queryReply.decode reply with
              | none => exact pull_unlockFail cpu
              | some d => exact pull_replied cpu _ eagerFetch hreply

end Conformance
end Kernel
end Dmerge
