import Dmerge.Kernel.PullCalls

/-!
# The protocol of an owner

The commands of a handle treat the registry with a discipline that can be read
off their code: a key is registered only after it was issued to the command
that registers it, and only a key that this command registered is adopted as
the hint of the handle or removed.
-/

namespace Dmerge
namespace Kernel

open Foundation Memory Descriptors Producer Prog

variable {Regs Rdma : Type}

inductive KeyInHand where
  | idle
  | allocated (key : UInt64)
  | held (key : UInt64) (heapStart : Nat)
  deriving DecidableEq, Repr

structure OwnerView where
  hint : Option UInt64
  inHand : KeyInHand
  deriving DecidableEq, Repr

/-- The protocol of a command.  `allowed` restricts the answers of external
calls. -/
def ownerProtocol (req : Request) (allowed : (o : KernelOp Regs Rdma) -> o.Res -> Prop) :
    Protocol (kernelSig Regs Rdma) where
  State := OwnerView
  may g
    | .setPrivateHint key =>
        g.hint = none ∧ exists base, req = .register base ∧ g.inHand = .held key base.toNat
    | .allocOneId => g.inHand = .idle
    | .addBundler key _ _ => g.inHand = .allocated key
    | .unregister key =>
        (exists base machineId, req = .registerRemote base machineId) ∧
          exists heapStart, g.inHand = .held key heapStart
    | _ => True
  next g
    | .getPrivateHint, r, g' => r = g.hint ∧ g' = g
    | .setPrivateHint key, _, g' => g' = { hint := some key, inHand := .idle }
    | .pushPublicHeap _, _, g' => g' = g
    | .allocOneId, none, g' => g' = g
    | .allocOneId, some key, g' => g' = { g with inHand := .allocated key }
    | .addBundler key heapStart _, _, g' => g' = { g with inHand := .held key heapStart }
    | .queryDescriptorBuf key, r, g' =>
        (forall heapStart, g.inHand = .held key heapStart -> r.isSome) ∧ g' = g
    | .unregister _, _, g' => g' = { g with inHand := .idle }
    | o, r, g' => allowed o r ∧ g' = g

/-- An RPC is answered when it is sent, a reply comes before the timeout, and
the reply can be decoded. -/
def Answered (lib : KernelLib Regs Rdma) : (o : KernelOp Regs Rdma) -> o.Res -> Prop
  | .syncCall _ _ _ _, sent => sent = true
  | .blockOnCaller _, reply =>
      exists bytes, reply = some bytes ∧ (lib.registerReply.decode bytes).isSome
  | _, _ => True

/-- How a command ends: a registration returns the hint of the handle, and when
`released` holds nothing is left in hand. -/
def CommandEnds (req : Request) (released : Prop) (g : OwnerView) (out : Outcome Int) : Prop :=
  forall r, out = .returned r ->
    (released -> g.inHand = .idle) ∧
      forall base, req = .register base -> exists key,
        g.hint = some key ∧ r = key.toInt64.toInt

section Calls

variable {req : Request} {allowed : (o : KernelOp Regs Rdma) -> o.Res -> Prop}
variable {post : OwnerView -> Outcome Int -> Prop} {g : OwnerView}

theorem conforms_external {o : KernelOp Regs Rdma} {k : o.Res -> KProg Regs Rdma Int}
    (ho : o.External)
    (hk : forall r, allowed o r -> (k r).Conforms (ownerProtocol req allowed) post g) :
    (Prog.call o k : KProg Regs Rdma Int).Conforms (ownerProtocol req allowed) post g := by
  have hanswer : forall r g', (ownerProtocol req allowed).next g o r g' ->
      allowed o r ∧ g' = g := by
    intro r g' hnext
    cases o <;> first | exact hnext | exact ho.elim
  apply Conforms.still
  · cases o <;> first | exact True.intro | exact ho.elim
  · exact fun r g' hnext => (hanswer r g' hnext).2
  · exact fun r g' hnext => hk r (hanswer r g' hnext).1

theorem conforms_expect {alpha : Type} {msg : String} {a : Option alpha}
    {k : alpha -> KProg Regs Rdma Int} {released : Prop}
    (hk : forall x, a = some x ->
      (k x).Conforms (ownerProtocol req allowed) (CommandEnds req released) g) :
    (Prog.expect msg a >>= k).Conforms (ownerProtocol req allowed)
      (CommandEnds req released) g := by
  apply Conforms.expect
  · intro r hr
    cases hr
  · exact hk

theorem only_quiet_conforms {p : KProg Regs Rdma Int} (hp : p.Only KernelOp.Quiet)
    (g : OwnerView) :
    p.Conforms (ownerProtocol req allowed) (fun g' _ => g' = g) g := by
  refine hp.conforms ?_ ?_ _
  · intro g o ho
    cases o <;> first | exact True.intro | exact ho.elim
  · intro g o r g' ho hnext
    cases o <;> first | exact hnext.2 | exact hnext | exact ho.elim

end Calls

/-!
## The commands follow the protocol
-/

section Commands

variable (lib : KernelLib Regs Rdma)
variable (allowed : (o : KernelOp Regs Rdma) -> o.Res -> Prop)

theorem registerHeap_conforms {req : Request} {released : Prop} {key : UInt64}
    {heapStart : Nat} {g : OwnerView} {k : Unit -> KProg Regs Rdma Int}
    (hhand : g.inHand = .allocated key)
    (hk : (k ()).Conforms (ownerProtocol req allowed) (CommandEnds req released)
      { g with inHand := .held key heapStart }) :
    (registerHeap key heapStart >>= k).Conforms (ownerProtocol req allowed)
      (CommandEnds req released) g := by
  unfold registerHeap
  simp only [invoke_bind, call_bind]
  refine conforms_external True.intro fun target _ => ?_
  cases target with
  | none =>
      intro r hr
      cases hr
  | some rdmaMeta =>
      refine ⟨hhand, ?_⟩
      rintro _ _ rfl
      exact hk

theorem register_conforms (heapBase : UInt64) (released : Prop) (hint : Option UInt64) :
    (ioctrl lib (.register heapBase)).Conforms (ownerProtocol (.register heapBase) allowed)
      (CommandEnds (.register heapBase) released) { hint := hint, inHand := .idle } := by
  unfold ioctrl
  simp only [invoke_bind]
  refine ⟨True.intro, ?_⟩
  rintro current _ ⟨rfl, rfl⟩
  cases current with
  | some hint =>
      rintro _ ⟨⟩
      exact ⟨fun _ => rfl, fun _ _ => ⟨hint, rfl, rfl⟩⟩
  | none =>
      refine ⟨rfl, ?_⟩
      intro id g' hnext
      refine conforms_expect fun key hkey => ?_
      subst hkey
      have hg' : g' = { hint := none, inHand := .allocated key } := hnext
      subst hg'
      unfold syscallRegisterMem
      rw [bind_assoc]
      refine registerHeap_conforms allowed rfl ?_
      refine ⟨⟨rfl, heapBase, rfl, rfl⟩, ?_⟩
      rintro _ _ rfl _ ⟨⟩
      exact ⟨fun _ => rfl, fun _ _ => ⟨key, rfl, rfl⟩⟩

theorem pull_conforms (heapHint machineId : UInt32) (eagerFetch : Bool) (released : Prop)
    (hint : Option UInt64) :
    (ioctrl lib (.pull heapHint machineId eagerFetch)).Conforms
      (ownerProtocol (.pull heapHint machineId eagerFetch) allowed)
      (CommandEnds (.pull heapHint machineId eagerFetch) released)
      { hint := hint, inHand := .idle } := by
  refine (only_quiet_conforms (syscallRmap_quiet lib _ _ _) _).weaken ?_
  rintro g out rfl r _
  exact ⟨fun _ => rfl, fun base hreq => by cases hreq⟩

section Remote

variable {allowed}
variable {heapBase : UInt64} {machineId : UInt32} {released : Prop} {g : OwnerView}

theorem unlockFail_conforms (cpu : CpuId) (hkept : ¬ released) :
    (unlockFail cpu : KProg Regs Rdma Int).Conforms
      (ownerProtocol (.registerRemote heapBase machineId) allowed)
      (CommandEnds (.registerRemote heapBase machineId) released) g := by
  refine conforms_external True.intro fun _ _ r _ => ?_
  exact ⟨fun h => absurd h hkept, fun base hreq => by cases hreq⟩

theorem remoteRegisterCall_conforms {localHint : UInt64} {heapStart : Nat}
    (remoteMachineId : UInt64) (buf : UInt64 × Nat)
    (hreleased : released -> forall o r, allowed o r -> Answered lib o r)
    (hhand : g.inHand = .held localHint heapStart) :
    (remoteRegisterCall lib localHint remoteMachineId buf).Conforms
      (ownerProtocol (.registerRemote heapBase machineId) allowed)
      (CommandEnds (.registerRemote heapBase machineId) released) g := by
  unfold remoteRegisterCall
  simp only [invoke_bind]
  refine conforms_external True.intro fun source _ => ?_
  refine conforms_external True.intro fun cpu _ => ?_
  rcases lockCpu_eq lib cpu with ⟨_, hlock⟩ | ⟨_, hlock⟩
  case inr =>
    rw [hlock]
    refine conforms_external True.intro fun _ _ r hend => ?_
    cases hend
  rw [hlock, invoke_bind]
  refine conforms_external True.intro fun _ _ => ?_
  refine conforms_external True.intro fun caller _ => conforms_expect fun _ _ => ?_
  refine conforms_external True.intro fun machine _ => ?_
  refine conforms_external True.intro fun sent hsent => ?_
  cases sent with
  | false =>
      refine unlockFail_conforms cpu fun h => ?_
      cases hreleased h _ _ hsent
  | true =>
      refine conforms_external True.intro fun reply hreply => ?_
      cases reply with
      | none =>
          refine unlockFail_conforms cpu fun h => ?_
          rcases hreleased h _ _ hreply with ⟨bytes, hbytes, _⟩
          cases hbytes
      | some reply =>
          refine conforms_external True.intro fun recv _ => conforms_expect fun _ _ => ?_
          cases hdecode : lib.registerReply.decode reply with
          | none =>
              refine unlockFail_conforms cpu fun h => ?_
              rcases hreleased h _ _ hreply with ⟨_, ⟨⟩, hsome⟩
              rw [hdecode] at hsome
              cases hsome
          | some registerRemoteReply =>
              refine conforms_external True.intro fun _ _ => ?_
              refine ⟨⟨⟨heapBase, machineId, rfl⟩, heapStart, hhand⟩, ?_⟩
              rintro _ _ rfl r _
              exact ⟨fun _ => rfl, fun base hreq => by cases hreq⟩

theorem registerRemote_conforms
    (hreleased : released -> forall o r, allowed o r -> Answered lib o r)
    (hint : Option UInt64) :
    (ioctrl lib (.registerRemote heapBase machineId)).Conforms
      (ownerProtocol (.registerRemote heapBase machineId) allowed)
      (CommandEnds (.registerRemote heapBase machineId) released)
      { hint := hint, inHand := .idle } := by
  unfold ioctrl
  simp only [invoke_bind]
  refine ⟨rfl, ?_⟩
  intro id g hnext
  refine conforms_expect fun key hkey => ?_
  subst hkey
  have hg : g = { hint := hint, inHand := .allocated key } := hnext
  subst hg
  unfold syscallRegisterRemoteHeap
  refine registerHeap_conforms allowed rfl ?_
  simp only [invoke_bind]
  refine ⟨True.intro, ?_⟩
  rintro buf _ ⟨hfound, rfl⟩
  cases buf with
  | none => cases hfound heapBase.toNat rfl
  | some buf => exact remoteRegisterCall_conforms lib machineId.toUInt64 buf hreleased rfl

end Remote

theorem ioctrl_conforms (req : Request) {released : Prop}
    (hreleased : released -> forall base machineId, req = .registerRemote base machineId ->
      forall o r, allowed o r -> Answered lib o r)
    (hint : Option UInt64) :
    (ioctrl lib req).Conforms (ownerProtocol req allowed) (CommandEnds req released)
      { hint := hint, inHand := .idle } := by
  cases req with
  | register heapBase => exact register_conforms lib allowed heapBase released hint
  | pull heapHint machineId eagerFetch =>
      exact pull_conforms lib allowed heapHint machineId eagerFetch released hint
  | registerRemote heapBase machineId =>
      exact registerRemote_conforms lib (fun h => hreleased h heapBase machineId rfl) hint

end Commands
end Kernel
end Dmerge
