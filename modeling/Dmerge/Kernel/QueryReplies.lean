import Dmerge.Kernel.Buffers

/-!
# The reply to a query

A query of a registered key is answered with a record that tells where the
descriptor lies.  The handler also builds a record for a key that is not
registered, but it has left before with no reply at all, and nothing can be
decoded from that.
-/

namespace Dmerge
namespace Kernel

open Foundation Memory Descriptors Producer

variable {Regs Rdma : Type} {bufSize : Nat}

def Tells (s : ModuleState Regs Rdma bufSize) (key : UInt64)
    (reply : HeapDescriptorQueryReply) : Prop :=
  match s.bundle key with
  | some b =>
      reply = { pa := b.serializedBuf, sz := UInt64.ofNat b.serializedBufLen, ready := true }
  | none => reply.ready = false

/-- The bytes that a query of the key sends are a record, and it says what is meant. -/
def AnswersDecodably (lib : KernelLib Regs Rdma) (self : Nat) (env : Surroundings Regs Rdma)
    (s : ModuleState Regs Rdma bufSize) (key : UInt64) (output : Bytes) : Prop :=
  exists out sent reply,
    (runAlone lib self env (handleQuery lib (lib.usize.encode key) output) s).1 =
        .returned (out, sent) ∧
      lib.queryReply.decode (out.take sent) = some reply ∧ Tells s key reply

section Queries

variable {lib : KernelLib Regs Rdma} {s : ModuleState Regs Rdma bufSize} {key : UInt64}

theorem queryDescriptorBuf_eq :
    s.service.queryDescriptorBuf key =
      (s.bundle key).map fun b => (b.serializedBuf, b.serializedBufLen) := by
  unfold ShadowHeapService.queryDescriptorBuf ModuleState.bundle
  cases s.service.registeredHeap.lookup key with
  | none => rfl
  | some b => rfl

variable (self : Nat) (env : Surroundings Regs Rdma) (output : Bytes)

theorem run_handleQuery_none (h : s.bundle key = none) :
    (runAlone lib self env (handleQuery lib (lib.usize.encode key) output) s).1 =
      .returned (output, 0) := by
  rw [run_handleQuery, lib.usize.decode_encode_nil, Option.getD_some, queryDescriptorBuf_eq, h]
  rfl

theorem run_handleQuery_some {b : HeapBundler Regs Rdma} (h : s.bundle key = some b) :
    (runAlone lib self env (handleQuery lib (lib.usize.encode key) output) s).1 =
      .returned
        (writeHead (lib.queryReply.encode
            { pa := b.serializedBuf, sz := UInt64.ofNat b.serializedBufLen, ready := true }) output,
          lib.queryReply.bufLen
            { pa := b.serializedBuf, sz := UInt64.ofNat b.serializedBufLen, ready := true }) := by
  rw [run_handleQuery, lib.usize.decode_encode_nil, Option.getD_some, queryDescriptorBuf_eq, h]
  rfl

theorem decode_writeHead_short {reply : HeapDescriptorQueryReply}
    (hshort : output.length < lib.queryReply.size) (n : Nat) :
    lib.queryReply.decode ((writeHead (lib.queryReply.encode reply) output).take n) = none := by
  unfold writeHead
  rw [if_pos (by rwa [lib.queryReply.length_encode_eq])]
  apply lib.queryReply.decode_short
  rw [List.length_take]
  omega

theorem AnswersDecodably.needs
    (h : AnswersDecodably lib self env s key output) :
    (s.bundle key).isSome ∧ lib.queryReply.size ≤ output.length := by
  rcases h with ⟨out, sent, reply, hrun, hdecode, _⟩
  cases hbundle : s.bundle key with
  | none =>
      rw [run_handleQuery_none self env output hbundle] at hrun
      cases hrun
      rw [List.take_zero, decode_queryReply_nil] at hdecode
      cases hdecode
  | some b =>
      rw [run_handleQuery_some self env output hbundle] at hrun
      cases hrun
      refine ⟨rfl, ?_⟩
      by_contra hshort
      rw [decode_writeHead_short output (Nat.not_le.mp hshort)] at hdecode
      cases hdecode

theorem answersDecodably_of_registered {b : HeapBundler Regs Rdma}
    (hbundle : s.bundle key = some b) (hlong : lib.queryReply.size ≤ output.length) :
    AnswersDecodably lib self env s key output := by
  refine ⟨_, _, { pa := b.serializedBuf, sz := UInt64.ofNat b.serializedBufLen, ready := true },
    run_handleQuery_some self env output hbundle, ?_, ?_⟩
  · rw [take_writeHead lib.queryReply _ hlong]
    exact lib.queryReply.decode_encode_nil _
  · unfold Tells
    rw [hbundle]

end Queries

/-- A query is answered decodably exactly when the key is registered and the buffer of
the handler holds a record. -/
theorem query_decodable_iff (lib : KernelLib Regs Rdma) (self : Nat)
    (env : Surroundings Regs Rdma) (s : ModuleState Regs Rdma bufSize) (key : UInt64)
    (output : Bytes) :
    AnswersDecodably lib self env s key output <->
      (s.bundle key).isSome ∧ lib.queryReply.size ≤ output.length := by
  constructor
  · exact AnswersDecodably.needs self env output
  · intro h
    rcases Option.isSome_iff_exists.mp h.1 with ⟨b, hbundle⟩
    exact answersDecodably_of_registered self env output hbundle h.2

/-- Nothing is registered, and a buffer of the size of a record stays as it is. -/
theorem not_query_decodable_unregistered :
    ¬ forall (s : ModuleState UInt64 UInt64 128) (key : UInt64) (output : Bytes),
      AnswersDecodably plainLib 0 (smallSurroundings none 0) s key output := by
  intro h
  have hdecodable := h (ModuleState.init (Pool.zeroed 128)) 1 (List.replicate 24 0)
  have hregistered := hdecodable.needs.1
  cases hregistered

end Kernel
end Dmerge
