import Dmerge.Kernel.RegistryRuns

/-!
# Registrations and their owners

A registered key is covered when it is the hint of an open handle or in the
hand of a command.  When the RPC of every remote registration is answered, each
key of the registry is covered in every state of a run, so nothing is left once
all handles are closed.  A remote registration whose RPC is not answered leaves
its key behind.
-/

namespace Dmerge
namespace Kernel

open Foundation Memory Descriptors Producer

variable {Regs Rdma : Type} {bufSize : Nat}

/-!
## Covered keys
-/

/-- A key that an owner keeps. -/
def Covers (g : OwnerView) (key : UInt64) : Prop :=
  g.hint = some key ∨ exists heapStart, g.inHand = .held key heapStart

section Protocol

variable {req : Request} {allowed : (o : KernelOp Regs Rdma) -> o.Res -> Prop}
variable {g g' : OwnerView} {key : UInt64}

theorem covers_next {o : KernelOp Regs Rdma} {r : o.Res}
    (hmay : (ownerProtocol req allowed).may g o)
    (hnext : (ownerProtocol req allowed).next g o r g')
    (hcovers : Covers g key) (hkept : o ≠ .unregister key) : Covers g' key := by
  cases o using KernelOp.byKind with
  | external o ho =>
      have hsame : g' = g := by
        cases o <;> first | exact hnext.2 | exact ho.elim
      rwa [hsame]
  | getPrivateHint => rwa [show g' = g from hnext.2]
  | queryDescriptorBuf key' => rwa [show g' = g from hnext.2]
  | pushPublicHeap heap => rwa [show g' = g from hnext]
  | allocOneId =>
      have hidle : g.inHand = .idle := hmay
      cases r with
      | none => rwa [show g' = g from hnext]
      | some id =>
          rcases hcovers with hhint | ⟨heapStart, hhand⟩
          · rw [show g' = { g with inHand := .allocated id } from hnext]
            exact Or.inl hhint
          · rw [hidle] at hhand
            cases hhand
  | addBundler key' heapStart' rdmaMeta =>
      have hallocated : g.inHand = .allocated key' := hmay
      rcases hcovers with hhint | ⟨heapStart, hhand⟩
      · rw [show g' = { g with inHand := .held key' heapStart' } from hnext]
        exact Or.inl hhint
      · rw [hallocated] at hhand
        cases hhand
  | setPrivateHint key' =>
      rcases hmay with ⟨hnone, base, _, hheld⟩
      rcases hcovers with hhint | ⟨heapStart, hhand⟩
      · rw [hnone] at hhint
        cases hhint
      · rw [hheld] at hhand
        cases hhand
        rw [show g' = { hint := some key, inHand := .idle } from hnext]
        exact Or.inl rfl
  | unregister key' =>
      rcases hmay with ⟨_, heapStart', hheld⟩
      rcases hcovers with hhint | ⟨heapStart, hhand⟩
      · rw [show g' = { g with inHand := .idle } from hnext]
        exact Or.inl hhint
      · rw [hheld] at hhand
        cases hhand
        exact absurd rfl hkept

end Protocol

theorem bundle_serve (lib : KernelLib Regs Rdma) (self : Nat)
    (env : Surroundings Regs Rdma) (s : ModuleState Regs Rdma bufSize)
    (o : KernelOp Regs Rdma) {key : UInt64}
    (hb : ((serve lib self env s o).2.1.bundle key).isSome) :
    ((s.bundle key).isSome ∧ o ≠ .unregister key) ∨
      exists heapStart rdmaMeta, o = .addBundler key heapStart rdmaMeta := by
  cases o using KernelOp.byKind with
  | external o ho =>
      rw [serve_external lib self env s ho] at hb
      exact Or.inl ⟨hb, by rintro rfl; exact ho.elim⟩
  | allocOneId =>
      refine Or.inl ⟨?_, fun h => by cases h⟩
      cases hid : s.idGen.allocOneId with
      | none => rwa [serve_allocOneId_none lib self env s hid] at hb
      | some next => rwa [serve_allocOneId_some lib self env s hid] at hb
  | addBundler key' heapStart rdmaMeta =>
      by_cases hkey : key = key'
      · exact Or.inr ⟨heapStart, rdmaMeta, by rw [hkey]⟩
      · refine Or.inl ⟨?_, fun h => by cases h⟩
        simp only [serve] at hb
        rwa [ModuleState.bundle_register, if_neg hkey] at hb
  | unregister key' =>
      simp only [serve] at hb
      rw [ModuleState.bundle_unregister] at hb
      by_cases hkey : key = key'
      · rw [if_pos hkey] at hb
        cases hb
      · rw [if_neg hkey] at hb
        refine Or.inl ⟨hb, fun h => hkey ?_⟩
        cases h
        rfl
  | getPrivateHint => exact Or.inl ⟨hb, fun h => by cases h⟩
  | setPrivateHint hint => exact Or.inl ⟨hb, fun h => by cases h⟩
  | pushPublicHeap heap => exact Or.inl ⟨hb, fun h => by cases h⟩
  | queryDescriptorBuf key' => exact Or.inl ⟨hb, fun h => by cases h⟩

/-!
## The invariant
-/

/-- In a remote registration the RPC is answered. -/
def AnsweredRemote (lib : KernelLib Regs Rdma) (req : Request)
    (o : KernelOp Regs Rdma) (r : o.Res) : Prop :=
  forall base machineId, req = .registerRemote base machineId -> Answered lib o r

structure MachineReleased (lib : KernelLib Regs Rdma) (m : Machine Regs Rdma bufSize)
    (past : List (Event Regs Rdma)) : Prop where
  owned : MachineOwned lib (AnsweredRemote lib) m past
  idle : forall self, m.running self = none -> inHand past self = .idle
  covered : forall key, (m.state.bundle key).isSome -> exists self,
    Covers (ownerView m.state past self) key

theorem releases_answeredRemote (lib : KernelLib Regs Rdma) (req : Request) :
    Releases lib (AnsweredRemote lib) req :=
  fun base machineId hreq _ _ hanswered => hanswered base machineId hreq

section Machines

variable {lib : KernelLib Regs Rdma} {m m' : Machine Regs Rdma bufSize}
variable {past now : List (Event Regs Rdma)}

theorem MachineReleased.keep (h : MachineReleased lib m past)
    (howned : MachineOwned lib (AnsweredRemote lib) m' (past ++ now))
    (hbundle : forall key, m'.state.bundle key = m.state.bundle key)
    (hview : forall self, ownerView m'.state (past ++ now) self = ownerView m.state past self)
    (hidle : forall self, m'.running self = none -> inHand past self = .idle) :
    MachineReleased lib m' (past ++ now) := by
  constructor
  · exact howned
  · intro self hrunning
    rw [← hidle self hrunning]
    exact congrArg OwnerView.inHand (hview self)
  · intro key hb
    rw [hbundle] at hb
    rcases h.covered key hb with ⟨self, hcovers⟩
    rw [← hview self] at hcovers
    exact ⟨self, hcovers⟩

theorem MachineReleased.started (h : MachineReleased lib m past) {self : Nat} {req : Request}
    (hidle : m.Idle self) :
    MachineReleased lib (m.setRunning self (some (req, ioctrl lib req)))
      (past ++ [.started self req]) := by
  have hhand : inHand past self = .idle := h.idle self (Option.isNone_iff_eq_none.mp hidle.2)
  apply h.keep (h.owned.started hidle) (fun _ => rfl)
  · intro other
    apply ownerView_other rfl
    by_cases hother : self = other
    · rw [← hother, hhand]
      exact if_pos rfl
    · exact if_neg hother
  · intro other hrunning
    by_cases hother : other = self
    · rw [hother]
      exact hhand
    · rw [Machine.setRunning_of_ne hother] at hrunning
      exact h.idle other hrunning

theorem MachineReleased.finished (h : MachineReleased lib m past) {self : Nat} {req : Request}
    {result : Int} (hrunning : m.running self = some (req, .ret result)) :
    MachineReleased lib (m.setRunning self none) (past ++ [.finished self req result]) := by
  apply h.keep (h.owned.finished hrunning) (fun _ => rfl)
  · exact fun _ => ownerView_other rfl rfl
  · intro other hother'
    by_cases hother : other = self
    · rw [hother]
      have hends := h.owned.command self req _ hrunning result rfl
      exact hends.1 (releases_answeredRemote lib req)
    · rw [Machine.setRunning_of_ne hother] at hother'
      exact h.idle other hother'

theorem MachineReleased.answered (h : MachineReleased lib m past) {self : Nat}
    (env : Surroundings Regs Rdma) {req : Request} {o : KernelOp Regs Rdma}
    {k : o.Res -> KProg Regs Rdma Int} (hrunning : m.running self = some (req, .call o k))
    (hallowed : o.External -> AnsweredRemote lib req o (env.answer o)) :
    MachineReleased lib
      ({ m with state := (serve lib self env m.state o).2.1 }.setRunning self
        (some (req, k (serve lib self env m.state o).1)))
      (past ++ (serve lib self env m.state o).2.2) := by
  have hopen := h.owned.running_open self (by rw [hrunning]; rfl)
  have hmay := (h.owned.command self req _ hrunning).1
  rcases serve_owned env o h.owned.keys hopen hmay hallowed with ⟨_, hnext, hothers⟩
  constructor
  · exact h.owned.answered env hrunning hallowed
  · intro other hother'
    by_cases hother : other = self
    · rw [hother, Machine.setRunning_self] at hother'
      cases hother'
    · rw [Machine.setRunning_of_ne hother] at hother'
      rw [← h.idle other hother']
      exact congrArg OwnerView.inHand (hothers other hother)
  · intro key hb
    rcases bundle_serve lib self env m.state o hb with ⟨hold, hkept⟩ | ⟨heapStart, rdma, rfl⟩
    · rcases h.covered key hold with ⟨other, hcovers⟩
      by_cases hother : other = self
      · rw [hother] at hcovers
        exact ⟨self, covers_next hmay hnext hcovers hkept⟩
      · rw [← hothers other hother] at hcovers
        exact ⟨other, hcovers⟩
    · exact ⟨self, Or.inr ⟨heapStart, congrArg OwnerView.inHand hnext⟩⟩

theorem MachineReleased.closed (h : MachineReleased lib m past) {self : Nat}
    (env : Surroundings Regs Rdma) (hidle : m.Idle self) :
    MachineReleased lib
      { m with state := (runAlone lib self env dropHandler m.state).2.1.setHandler self none }
      (past ++ ((runAlone lib self env dropHandler m.state).2.2 ++ [.closed self])) := by
  have hhand : inHand past self = .idle := h.idle self (Option.isNone_iff_eq_none.mp hidle.2)
  constructor
  · exact h.owned.closed env hidle
  · intro other hrunning
    by_cases hother : other = self
    · rw [hother, ← List.append_assoc, inHand_snoc, runAlone_dropHandler]
      cases m.state.hintOf self with
      | none =>
          simp only [List.append_nil]
          exact hhand
      | some hint =>
          simp only [inHand_snoc]
          exact if_pos rfl
    · rw [← h.idle other hrunning]
      exact congrArg OwnerView.inHand (ownerView_close lib m.state past hother env)
  · intro key hb
    have hb : ((runAlone lib self env dropHandler m.state).2.1.bundle key).isSome := hb
    rw [bundle_dropHandler] at hb
    by_cases hhint : m.state.hintOf self = some key
    · rw [if_pos hhint] at hb
      cases hb
    · rw [if_neg hhint] at hb
      rcases h.covered key hb with ⟨other, hcovers⟩
      by_cases hother : other = self
      · rw [hother] at hcovers
        rcases hcovers with hsame | ⟨heapStart, hheld⟩
        · exact absurd hsame hhint
        · have hheld' : inHand past self = .held key heapStart := hheld
          rw [hhand] at hheld'
          cases hheld'
      · rw [← ownerView_close lib m.state past hother env] at hcovers
        exact ⟨other, hcovers⟩

theorem MachineReleased.step (h : MachineReleased lib m past) {a : Act Regs Rdma}
    (hexternal : ExternalAnswers (AnsweredRemote lib) m a) (hstep : m.Step lib a m' now) :
    MachineReleased lib m' (past ++ now) := by
  cases hstep with
  | opened =>
      apply h.keep h.owned.opened (fun _ => rfl) _ h.idle
      intro self
      exact ownerView_other (h.owned.hintOf_open self) rfl
  | started self req hidle => exact h.started hidle
  | finished self env req result hrunning => exact h.finished hrunning
  | answered self env req o k hrunning hadmits =>
      exact h.answered env hrunning (hexternal self env req o k rfl hrunning)
  | closed self env hidle => exact h.closed env hidle

theorem machineReleased_of_run {pool : Pool bufSize} {acts : List (Act Regs Rdma)}
    (hmeets : RunMeets (Machine.step lib) (ExternalAnswers (AnsweredRemote lib))
      (Machine.init pool) acts)
    (hrun : runFrom (Machine.step lib) (Machine.init pool) acts = some (m, past)) :
    MachineReleased lib m past := by
  have hinit : MachineReleased lib (Machine.init pool : Machine Regs Rdma bufSize) [] :=
    ⟨machineOwned_init pool, fun _ _ => rfl, fun _ hb => by cases hb⟩
  exact runFrom_invariant
    (fun _ _ _ _ _ h hexternal hs => MachineReleased.step h hexternal (.of_step hs))
    hinit hmeets hrun

theorem MachineReleased.empty (h : MachineReleased lib m past)
    (hclosed : forall self, m.state.handlers self = none) :
    m.state.service.registeredHeap = ∅ := by
  apply Finmap.ext_lookup
  intro key
  rw [Finmap.lookup_empty]
  cases hb : m.state.service.registeredHeap.lookup key with
  | none => rfl
  | some b =>
      have hsome : (m.state.bundle key).isSome := by
        unfold ModuleState.bundle
        rw [hb]
        rfl
      rcases h.covered key hsome with ⟨self, hhint | ⟨heapStart, hheld⟩⟩
      · have hnone : m.state.hintOf self = none := by
          unfold ModuleState.hintOf
          rw [hclosed self]
          rfl
        have hhint' : m.state.hintOf self = some key := hhint
        rw [hnone] at hhint'
        cases hhint'
      · have hrunning : m.running self = none := by
          cases hcommand : m.running self with
          | none => rfl
          | some command =>
              have hopen := h.owned.running_open self (by rw [hcommand]; rfl)
              rw [hclosed self] at hopen
              cases hopen
        have hheld' : inHand past self = .held key heapStart := hheld
        rw [h.idle self hrunning] at hheld'
        cases hheld'

end Machines

/-!
## One remote registration alone
-/

def remoteRequest (env : Surroundings Regs Rdma) (buf : UInt64 × Nat) : RegisterRemoteReq where
  pa := buf.1
  sz := UInt64.ofNat buf.2
  sourceMachineId := env.answer .getMacId
  ready := true

def RpcAnswered (lib : KernelLib Regs Rdma) (env : Surroundings Regs Rdma)
    (machineId : UInt64) (buf : UInt64 × Nat) : Prop :=
  let cpu := env.answer .getCallingCpuId
  env.answer (.syncCall { machine := machineId, cpu := cpu }
      { machine := env.answer .getMacId, cpu := cpu } .remoteRegister
      (lib.registerReq.encode (remoteRequest env buf))) = true ∧
    exists reply, env.answer (.blockOnCaller (10 * timeoutUsec)) = some reply ∧
      (lib.registerReply.decode reply).isSome

theorem run_remoteRegisterCall {lib : KernelLib Regs Rdma} {self : Nat}
    {env : Surroundings Regs Rdma} {s s' : ModuleState Regs Rdma bufSize}
    {past past' : List (Event Regs Rdma)} {localHint machineId : UInt64}
    {buf : UInt64 × Nat} {r : Int}
    (hrun : (remoteRegisterCall lib localHint machineId buf).run (serveLogged lib self env)
      (s, past) = (.returned r, s', past')) :
    (RpcAnswered lib env machineId buf ∧
        s' = { s with service := s.service.unregister localHint }) ∨
      (¬ RpcAnswered lib env machineId buf ∧ s' = s) := by
  unfold remoteRegisterCall at hrun
  simp only [invoke_bind, Prog.run_call, serveLogged, serve] at hrun
  rcases run_lockCpu_returned hrun with ⟨_, hrun⟩
  simp only [Prog.run_call, serveLogged, serve] at hrun
  rcases Prog.run_expect_returned _ hrun with ⟨_, _, hrun⟩
  simp only [Prog.run_call, serveLogged, serve] at hrun
  simp only [RpcAnswered, remoteRequest]
  split at hrun
  · next hfailed =>
      cases hrun
      refine Or.inr ⟨fun h => ?_, rfl⟩
      rw [hfailed] at h
      cases h.1
  · next hsent =>
      simp only [Prog.run_call, serveLogged, serve] at hrun
      split at hrun
      · next hnone =>
          cases hrun
          refine Or.inr ⟨?_, rfl⟩
          rintro ⟨_, reply, hreply, _⟩
          rw [hnone] at hreply
          cases hreply
      · next reply hreply =>
          simp only [Prog.run_call, serveLogged, serve] at hrun
          rcases Prog.run_expect_returned _ hrun with ⟨_, _, hrun⟩
          cases hdecode : lib.registerReply.decode reply with
          | none =>
              rw [hdecode] at hrun
              cases hrun
              refine Or.inr ⟨?_, rfl⟩
              rintro ⟨_, reply', hreply', hsome⟩
              rw [hreply] at hreply'
              cases hreply'
              rw [hdecode] at hsome
              cases hsome
          | some registerRemoteReply =>
              rw [hdecode] at hrun
              cases hrun
              refine Or.inl ⟨⟨hsent, reply, hreply, ?_⟩, rfl⟩
              rw [hdecode]
              rfl

def captured (env : Surroundings Regs Rdma) (heapBase : UInt64) (rdmaMeta : Rdma) :
    Registration Regs Rdma where
  heapStartAddr := heapBase.toNat
  task := env.task
  rdmaMeta := rdmaMeta
  buf := env.buf

/-- The RPC of a remote registration of a heap is answered. -/
def RemoteAnswered (lib : KernelLib Regs Rdma) (env : Surroundings Regs Rdma)
    (heapBase : UInt64) (machineId : UInt32) : Prop :=
  forall rdmaMeta, env.answer .newFromDcTargetPool = some rdmaMeta ->
    RpcAnswered lib env machineId.toUInt64
      (env.buf, ((captured env heapBase rdmaMeta).bundler lib).serializedBufLen)

theorem queryDescriptorBuf_register (lib : KernelLib Regs Rdma)
    (s : ModuleState Regs Rdma bufSize) (key : UInt64) (reg : Registration Regs Rdma) :
    (s.register lib key reg).service.queryDescriptorBuf key =
      some (reg.buf, (reg.bundler lib).serializedBufLen) := by
  have hb := s.bundle_register lib key reg key
  rw [if_pos rfl] at hb
  unfold ModuleState.bundle at hb
  unfold ShadowHeapService.queryDescriptorBuf
  rw [hb]
  rfl

theorem runAlone_registerRemote {lib : KernelLib Regs Rdma} {self : Nat}
    {env : Surroundings Regs Rdma} {s s' : ModuleState Regs Rdma bufSize}
    {now : List (Event Regs Rdma)} {heapBase : UInt64} {machineId : UInt32} {r : Int}
    (hrun : runAlone lib self env (ioctrl lib (.registerRemote heapBase machineId)) s =
      (.returned r, s', now)) :
    exists key idGen rdmaMeta,
      s.idGen.allocOneId = some (key, idGen) ∧
        ((RemoteAnswered lib env heapBase machineId ∧
            forall key', s'.bundle key' = if key' = key then none else s.bundle key') ∨
          (¬ RemoteAnswered lib env heapBase machineId ∧
            s'.bundle key = some ((captured env heapBase rdmaMeta).bundler lib))) := by
  unfold runAlone ioctrl syscallRegisterRemoteHeap registerHeap at hrun
  simp only [invoke_bind, Prog.run_call, serveLogged] at hrun
  cases hid : s.idGen.allocOneId with
  | none =>
      rw [serve_allocOneId_none lib self env s hid] at hrun
      cases hrun
  | some next =>
      rcases next with ⟨key, idGen⟩
      rw [serve_allocOneId_some lib self env s hid] at hrun
      simp only [Prog.expect_some, Prog.ret_bind, Prog.call_bind, Prog.run_call, serveLogged,
        serve] at hrun
      rw [Prog.bind_assoc] at hrun
      rcases Prog.run_expect_returned _ hrun with ⟨rdmaMeta, hrdma, hrun⟩
      simp only [invoke_bind, Prog.run_call, serveLogged, serve,
        queryDescriptorBuf_register] at hrun
      refine ⟨key, idGen, rdmaMeta, rfl, ?_⟩
      have hanswered : RemoteAnswered lib env heapBase machineId <->
          RpcAnswered lib env machineId.toUInt64
            (env.buf, ((captured env heapBase rdmaMeta).bundler lib).serializedBufLen) := by
        constructor
        · exact fun h => h rdmaMeta hrdma
        · intro h rdmaMeta' hrdma'
          rw [hrdma] at hrdma'
          cases hrdma'
          exact h
      rcases run_remoteRegisterCall hrun with ⟨hrpc, rfl⟩ | ⟨hrpc, rfl⟩
      · refine Or.inl ⟨hanswered.mpr hrpc, fun key' => ?_⟩
        rw [ModuleState.bundle_unregister]
        by_cases hkey : key' = key
        · rw [if_pos hkey, if_pos hkey]
        · rw [if_neg hkey, if_neg hkey, ModuleState.bundle_register, if_neg hkey]
          rfl
      · refine Or.inr ⟨fun h => hrpc (hanswered.mp h), ?_⟩
        rw [ModuleState.bundle_register, if_pos rfl]
        rfl

theorem KeysOwned.registerRemote_keeps_iff {lib : KernelLib Regs Rdma} {self : Nat}
    {env : Surroundings Regs Rdma} {s s' : ModuleState Regs Rdma bufSize}
    {past now : List (Event Regs Rdma)} {heapBase : UInt64} {machineId : UInt32} {r : Int}
    (h : KeysOwned lib s past)
    (hrun : runAlone lib self env (ioctrl lib (.registerRemote heapBase machineId)) s =
      (.returned r, s', now)) :
    (forall key, (s'.bundle key).isSome = (s.bundle key).isSome) <->
      RemoteAnswered lib env heapBase machineId := by
  rcases runAlone_registerRemote hrun with ⟨key, idGen, rdmaMeta, hid, hcases⟩
  have hfresh : s.bundle key = none := by
    cases hb : s.bundle key with
    | none => rfl
    | some b =>
        rcases h.bundle_registered key b hb with ⟨self', reg, hin, _⟩
        exact absurd hin ((h.fresh hid).2 self' reg)
  rcases hcases with ⟨hanswered, hbundle⟩ | ⟨hanswered, hbundle⟩
  · refine ⟨fun _ => hanswered, fun _ key' => ?_⟩
    rw [hbundle]
    by_cases hkey : key' = key
    · rw [if_pos hkey, hkey, hfresh]
    · rw [if_neg hkey]
  · refine ⟨fun hsame => ?_, fun h => absurd h hanswered⟩
    have hkey := hsame key
    rw [hbundle, hfresh] at hkey
    cases hkey

/-!
## Nothing outlives its owner
-/

/-- When every remote registration of a run gets its answer, nothing is left
once all handles are closed.  In any run, a remote registration that runs alone
keeps the keys of the registry exactly when it gets its answer. -/
theorem registrations_released (lib : KernelLib Regs Rdma) (pool : Pool bufSize)
    {acts : List (Act Regs Rdma)} {m : Machine Regs Rdma bufSize}
    {past : List (Event Regs Rdma)}
    (hrun : runFrom (Machine.step lib) (Machine.init pool) acts = some (m, past)) :
    (RunMeets (Machine.step lib) (ExternalAnswers (AnsweredRemote lib))
        (Machine.init pool) acts ->
      (forall key, (m.state.bundle key).isSome -> exists self,
        Covers (ownerView m.state past self) key) ∧
      ((forall self, m.state.handlers self = none) ->
        m.state.service.registeredHeap = ∅)) ∧
    (forall self env heapBase machineId r s' now,
      runAlone lib self env (ioctrl lib (.registerRemote heapBase machineId)) m.state =
          (.returned r, s', now) ->
        ((forall key, (s'.bundle key).isSome = (m.state.bundle key).isSome) <->
          RemoteAnswered lib env heapBase machineId)) := by
  constructor
  · intro hmeets
    have hreleased := machineReleased_of_run hmeets hrun
    exact ⟨hreleased.covered, hreleased.empty⟩
  · intro self env heapBase machineId r s' now hcall
    exact (machineOwned_of_any_run hrun).keys.registerRemote_keeps_iff hcall

/-- One handle registers a heap at another machine and is closed.  The RPC gets
the given reply, and the command takes `n` steps. -/
def remoteActs (n : Nat) (reply : Option Bytes) : List (Act UInt64 UInt64) :=
  [.openHandle, .command 0 (.registerRemote 4096 1)] ++
    List.replicate n (.resume 0 (smallSurroundings reply 0)) ++
      [.closeHandle 0 (smallSurroundings reply 0)]

def zeroReply : Bytes := List.replicate 8 0

theorem answered_zeroReply (o : KernelOp UInt64 UInt64) :
    Answered plainLib o ((smallSurroundings (some zeroReply) 0).answer o) := by
  cases o with
  | syncCall session mySession rpc payload => rfl
  | blockOnCaller timeoutUsec => exact ⟨zeroReply, rfl, by decide⟩
  | _ => exact True.intro

theorem closed_of_one {lib : KernelLib Regs Rdma} {m : Machine Regs Rdma bufSize}
    {past : List (Event Regs Rdma)}
    {allowed : Request -> (o : KernelOp Regs Rdma) -> o.Res -> Prop}
    (h : MachineOwned lib allowed m past) (hnext : m.nextHandle = 1)
    (hclosed : (m.state.handlers 0).isNone) (self : Nat) : m.state.handlers self = none := by
  cases hhandler : m.state.handlers self with
  | none => rfl
  | some handler =>
      have hlt := h.handle_lt self (by rw [hhandler]; rfl)
      have hzero : self = 0 := by omega
      rw [hzero] at hhandler
      rw [hhandler] at hclosed
      cases hclosed

theorem registrations_released_answered :
    exists m past,
      runFrom (Machine.step plainLib) (Machine.init (Pool.zeroed 128))
          (remoteActs 15 (some zeroReply)) = some (m, past) ∧
        (forall self, m.state.handlers self = none) ∧
          m.state.service.registeredHeap = ∅ := by
  have hobserved :
      (runFrom (Machine.step plainLib) (Machine.init (Pool.zeroed 128))
        (remoteActs 15 (some zeroReply))).map
          (fun r => (r.1.nextHandle, (r.1.state.handlers 0).isNone)) = some (1, true) := by
    rfl
  rcases Option.map_eq_some_iff.mp hobserved with ⟨⟨m, past⟩, hrun, hpair⟩
  have hclosed := closed_of_one (machineOwned_of_any_run hrun) (congrArg Prod.fst hpair)
    (congrArg Prod.snd hpair)
  have hmeets : RunMeets (Machine.step plainLib) (ExternalAnswers (AnsweredRemote plainLib))
      (Machine.init (Pool.zeroed 128)) (remoteActs 15 (some zeroReply)) := by
    refine runMeets_of_forall ?_ _
    rintro a hmem _ self env req o k rfl _ _ base machineId _
    have henv : env = smallSurroundings (some zeroReply) 0 := by
      simp [remoteActs] at hmem
      exact hmem.2
    rw [henv]
    exact answered_zeroReply o
  exact ⟨m, past, hrun, hclosed,
    ((registrations_released plainLib (Pool.zeroed 128) hrun).1 hmeets).2 hclosed⟩

theorem not_registrations_released_unanswered :
    ¬ forall acts (m : Machine UInt64 UInt64 128) past,
      runFrom (Machine.step plainLib) (Machine.init (Pool.zeroed 128)) acts = some (m, past) ->
        (forall self, m.state.handlers self = none) ->
          m.state.service.registeredHeap = ∅ := by
  intro h
  have hobserved :
      (runFrom (Machine.step plainLib) (Machine.init (Pool.zeroed 128))
        (remoteActs 13 none)).map
          (fun r => (r.1.nextHandle, (r.1.state.handlers 0).isNone,
            (r.1.state.service.registeredHeap.lookup 1).isSome)) = some (1, true, true) := by
    rfl
  rcases Option.map_eq_some_iff.mp hobserved with ⟨⟨m, past⟩, hrun, hfacts⟩
  have hclosed := closed_of_one (machineOwned_of_any_run hrun) (congrArg Prod.fst hfacts)
    (congrArg (fun r => r.2.1) hfacts)
  have hkept : (m.state.service.registeredHeap.lookup 1).isSome = true :=
    congrArg (fun r => r.2.2) hfacts
  rw [h _ m past hrun hclosed, Finmap.lookup_empty] at hkept
  cases hkept

end Kernel
end Dmerge
