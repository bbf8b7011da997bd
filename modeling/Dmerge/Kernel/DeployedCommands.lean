import Dmerge.Kernel.Deployment
import Dmerge.Kernel.QueryReplies

/-!
# The commands of a deployment

What a command does to the machines and to the memory of its process, whatever
the network answers.  A pull that does not return 0 leaves both as they were; a
pull that returns 0 has found a heap under its hint at the machine that it asked,
keeps it, and loads its pages.
-/

namespace Dmerge
namespace Kernel

open Foundation Memory Descriptors Producer Prog

variable {Regs Rdma Page : Type} {bufSize : Nat}

/-!
## The calls that concern the memory
-/

section Mapping

variable {lib : KernelLib Regs Rdma} {machine : UInt64} {self : Nat} {env : CallEnv Regs Rdma}
variable {c : Reader Regs Rdma Page}

def mapMemory (c : Reader Regs Rdma Page) (o : KernelOp Regs Rdma) (mem : ProcessMemory Page) :
    o.Res × ProcessMemory Page :=
  ((c.answer o (mem.world [])).1, (c.answer o (mem.world [])).2.memory)

theorem serveProcess_mapping (hc : c.other = env.caller.answer) {o : KernelOp Regs Rdma}
    (ho : o.Mapping) (st : Session Regs Rdma bufSize) (mem : ProcessMemory Page) :
    serveProcess lib machine self env c o (st, mem) =
      ((mapMemory c o mem).1, (st, (mapMemory c o mem).2)) := by
  have hother : forall o : KernelOp Regs Rdma, o.Mapping -> c.answer o (mem.world []) =
      (c.other o, mem.world []) ->
        ((serveCommand lib machine self env o st).1,
          ((serveCommand lib machine self env o st).2, mem)) =
            ((mapMemory c o mem).1, (st, (mapMemory c o mem).2)) := by
    intro o ho hanswer
    unfold mapMemory
    rw [serveCommand_mapping ho, hanswer, hc]
    rfl
  cases o with
  | setMixedMap m => exact hother _ True.intro rfl
  | freePage page => exact hother _ True.intro rfl
  | getDcQpKey => exact hother _ True.intro rfl
  | _ => first | rfl | exact ho.elim

theorem answer_mapping {o : KernelOp Regs Rdma} (ho : o.Mapping) (mem : ProcessMemory Page) :
    c.answer o (mem.world []) = ((mapMemory c o mem).1, (mapMemory c o mem).2.world []) := by
  cases o with
  | mapOneRegion m next =>
      unfold mapMemory
      simp only [Reader.answer]
      cases mappable m <;> rfl
  | _ => first | rfl | exact ho.elim

theorem run_mapping {alpha : Type} (hc : c.other = env.caller.answer)
    {p : KProg Regs Rdma alpha} (hp : p.Only KernelOp.Mapping) (st : Session Regs Rdma bufSize)
    (mem : ProcessMemory Page) :
    p.run (serveProcess lib machine self env c) (st, mem) =
      ((p.run c.answer (mem.world [])).1, (st, (p.run c.answer (mem.world [])).2.memory)) := by
  have hprocess : p.run (serveProcess lib machine self env c) (st, mem) =
      ((p.run (mapMemory c) mem).1, (st, (p.run (mapMemory c) mem).2)) :=
    hp.run_part (fun mem => (st, mem))
      (fun o mem ho => serveProcess_mapping hc ho st mem) mem
  have hreader : p.run c.answer (mem.world []) =
      ((p.run (mapMemory c) mem).1, (p.run (mapMemory c) mem).2.world []) :=
    hp.run_part (fun mem : ProcessMemory Page => mem.world [])
      (fun o mem ho => answer_mapping ho mem) mem
  rw [hprocess, hreader]
  rfl

def Loads (c : Reader Regs Rdma Page) (d : HeapDescriptor Regs Rdma)
    (fetches : VMADescriptor -> List Nat) (mem mem' : ProcessMemory Page) : Prop :=
  forall va, mem'.inserted va =
    match lastCovering va d.vma with
    | some m => if va ∈ fetches m then c.pageAt d va else none
    | none => mem.inserted va

theorem run_applyTo_process (hc : c.other = env.caller.answer) (hqp : c.Connected)
    {d : HeapDescriptor Regs Rdma} (haccess : c.accessible d.machineInfo = true)
    (eagerFetch : Bool) (st : Session Regs Rdma bufSize) (mem : ProcessMemory Page) :
    exists mem', (applyTo lib d eagerFetch).run (serveProcess lib machine self env c) (st, mem) =
      (.returned (), (st, mem')) ∧ Loads c d (fetchedAddrs eagerFetch) mem mem' := by
  rcases run_applyTo_reader lib d hqp haccess eagerFetch (mem.world []) with
    ⟨w', hrun, hmapped⟩
  refine ⟨w'.memory, ?_, ?_⟩
  · rw [run_mapping hc (applyTo_mapping lib d eagerFetch), hrun]
  · intro va
    show w'.inserted va = _
    rw [hmapped.inserted, inserted_mapped]
    rfl

end Mapping

/-!
## A pull
-/

def Offers (lib : KernelLib Regs Rdma) (machines : Machines Regs Rdma bufSize)
    (target key : UInt64) (d : HeapDescriptor Regs Rdma) : Prop :=
  exists b, (machines target).bundle key = some b ∧
    HeapDescriptor.deserialize lib
      (((machines target).pool.bytes b.serializedBuf).take
        (UInt64.ofNat b.serializedBufLen).toNat) = .ok d

inductive PullLeaves (lib : KernelLib Regs Rdma) (machines : Machines Regs Rdma bufSize)
    (machine : UInt64) (self : Nat) (key target : UInt64) (env : CallEnv Regs Rdma)
    (c : Reader Regs Rdma Page) (eagerFetch : Bool) (mem : ProcessMemory Page) :
    Outcome Int × (Session Regs Rdma bufSize × ProcessMemory Page) -> Prop where
  | failed {out : Outcome Int} {st : Session Regs Rdma bufSize} (hout : out ≠ .returned 0)
      (hmachines : st.machines = machines)
      (hcause : Kernel.Connected lib env.caller.answer ->
        forall d, ¬ Offers lib machines target key d) :
      PullLeaves lib machines machine self key target env c eagerFetch mem (out, (st, mem))
  | pulled {d : HeapDescriptor Regs Rdma} {info : AccessInfo Rdma}
      {st : Session Regs Rdma bufSize} {mem' : ProcessMemory Page}
      (hoffers : Offers lib machines target key d)
      (hmachines : st.machines = Function.update machines machine
        ((machines machine).updateHandler self fun h =>
          { h with publicHeaps := h.publicHeaps ++
            [{ id := key, descriptor := d, accessInfo := info }] }))
      (hloads : Loads c d (fetchedAddrs eagerFetch) mem mem') :
      PullLeaves lib machines machine self key target env c eagerFetch mem
        (.returned 0, (st, mem'))

section Pull

variable {lib : KernelLib Regs Rdma} {machine : UInt64} {self : Nat} {env : CallEnv Regs Rdma}
variable {c : Reader Regs Rdma Page}

structure ReadsFor (c : Reader Regs Rdma Page) (env : CallEnv Regs Rdma) : Prop where
  other : c.other = env.caller.answer
  accessible : forall machineInfo,
    c.accessible machineInfo = (env.caller.answer (.accessInfoNew machineInfo)).isSome

section Failing

variable {machines : Machines Regs Rdma bufSize} {key target : UInt64} {eagerFetch : Bool}
variable {mem : ProcessMemory Page} {st : Session Regs Rdma bufSize}

theorem run_unlockFail_process (cpu : CpuId) (hmachines : st.machines = machines)
    (hcause : Kernel.Connected lib env.caller.answer ->
      forall d, ¬ Offers lib machines target key d) :
    PullLeaves lib machines machine self key target env c eagerFetch mem
      ((unlockFail cpu : KProg Regs Rdma Int).run (serveProcess lib machine self env c)
        (st, mem)) := by
  refine .failed (fun h => by cases h) ?_ hcause
  simp only [serveCommand, serveOn, serve, Function.update_eq_self]
  exact hmachines

theorem run_panic_process (msg : String) (hmachines : st.machines = machines)
    (hcause : Kernel.Connected lib env.caller.answer ->
      forall d, ¬ Offers lib machines target key d) :
    PullLeaves lib machines machine self key target env c eagerFetch mem
      ((Prog.panic msg : KProg Regs Rdma Int).run (serveProcess lib machine self env c)
        (st, mem)) :=
  .failed (fun h => by cases h) hmachines hcause

end Failing

theorem run_pullFetched_process (hc : ReadsFor c env) (hqp : c.Connected)
    {machines : Machines Regs Rdma bufSize} {key target : UInt64} (cpu : CpuId)
    (eagerFetch : Bool) (mem : ProcessMemory Page) {b : HeapBundler Regs Rdma}
    (hb : (machines target).bundle key = some b) {st : Session Regs Rdma bufSize}
    (hmachines : st.machines = machines) :
    PullLeaves lib machines machine self key target env c eagerFetch mem
      ((pullFetched lib key cpu eagerFetch
        (((machines target).pool.bytes b.serializedBuf).take
          (UInt64.ofNat b.serializedBufLen).toNat)).run
            (serveProcess lib machine self env c) (st, mem)) := by
  subst hmachines
  unfold pullFetched
  cases hdes : HeapDescriptor.deserialize lib
      (((st.machines target).pool.bytes b.serializedBuf).take
        (UInt64.ofNat b.serializedBufLen).toNat) with
  | error stop =>
      have hcause : Kernel.Connected lib env.caller.answer ->
          forall d, ¬ Offers lib st.machines target key d := by
        intro _ d hoffers
        rcases hoffers with ⟨b', hb', hd⟩
        rw [hb] at hb'
        cases hb'
        rw [hdes] at hd
        cases hd
      cases stop with
      | abort => exact run_panic_process _ rfl hcause
      | reject => exact run_unlockFail_process cpu rfl hcause
  | ok des =>
      simp only [invoke_bind, run_call, serveProcess, Reader.answer]
      cases haccess : c.accessible des.machineInfo with
      | false =>
          apply run_unlockFail_process cpu rfl
          intro hconn
          have hsome := hconn.access des.machineInfo
          rw [← hc.accessible, haccess] at hsome
          cases hsome
      | true =>
          have happlied : exists mem', (applyTo lib des eagerFetch).run
              (serveProcess lib machine self env c) (st, mem) = (.returned (), (st, mem')) ∧
                Loads c des (fetchedAddrs eagerFetch) mem mem' :=
            run_applyTo_process hc.other hqp haccess eagerFetch st mem
          rcases happlied with ⟨mem', hrun, hloads⟩
          simp only [if_true, run_bind, hrun]
          have hoffers : Offers lib st.machines target key des := ⟨b, hb, hdes⟩
          have hends : forall st' : Session Regs Rdma bufSize,
              st'.machines = Function.update st.machines machine
                ((st.machines machine).updateHandler self fun h =>
                  { h with publicHeaps := h.publicHeaps ++
                    [{ id := key, descriptor := des,
                       accessInfo := { machineInfo := des.machineInfo } }] }) ->
                PullLeaves lib st.machines machine self key target env c eagerFetch mem
                  (.returned 0, (st', mem')) :=
            fun st' hst => .pulled hoffers hst hloads
          apply hends
          simp only [serveCommand, serveOn, serve, Function.update_eq_self]

theorem run_pullReplied_process (hc : ReadsFor c env)
    {machines : Machines Regs Rdma bufSize} {key target : UInt64} (cpu : CpuId)
    (eagerFetch : Bool) (mem : ProcessMemory Page) {b : HeapBundler Regs Rdma}
    (hb : (machines target).bundle key = some b) {st : Session Regs Rdma bufSize}
    (hmachines : st.machines = machines) :
    PullLeaves lib machines machine self key target env c eagerFetch mem
      ((pullReplied lib key cpu { machine := target, cpu := cpu } eagerFetch
        { pa := b.serializedBuf, sz := UInt64.ofNat b.serializedBufLen, ready := true }).run
          (serveProcess lib machine self env c) (st, mem)) := by
  subst hmachines
  unfold pullReplied remoteDescriptorFetch
  simp only [not_true_eq_false, if_false, invoke_bind, call_bind, Prog.bind_assoc, run_call,
    serveProcess, serveCommand, serveOn, serve, Function.update_eq_self]
  cases hss : env.caller.answer (.getSs { machine := target, cpu := cpu }) with
  | none =>
      have hbroken : ¬ Kernel.Connected lib env.caller.answer := by
        intro hconn
        have hsome := hconn.session { machine := target, cpu := cpu }
        rw [hss] at hsome
        cases hsome
      exact run_panic_process _ rfl fun hconn => absurd hconn hbroken
  | some _ =>
      simp only [expect_some, ret_bind, run_call, serveProcess, serveCommand, serveOn, serve,
        Function.update_eq_self]
      cases hqp : env.caller.answer .getDcQpKey with
      | none =>
          have hbroken : ¬ Kernel.Connected lib env.caller.answer := by
            intro hconn
            have hsome := hconn.queuePair
            rw [hqp] at hsome
            cases hsome
          exact run_panic_process _ rfl fun hconn => absurd hconn hbroken
      | some _ =>
          have hconnected : c.Connected := by
            unfold Reader.Connected
            rw [hc.other, hqp]
          simp only [expect_some, ret_bind, run_call, serveProcess, serveCommand, serveOn]
          cases hposted : env.caller.answer (.postRead { machine := target, cpu := cpu }
              b.serializedBuf (UInt64.ofNat b.serializedBufLen)) with
          | false =>
              have hbroken : ¬ Kernel.Connected lib env.caller.answer := by
                intro hconn
                have htrue := hconn.posted { machine := target, cpu := cpu } b.serializedBuf
                  (UInt64.ofNat b.serializedBufLen)
                rw [hposted] at htrue
                cases htrue
              exact run_unlockFail_process cpu rfl fun hconn => absurd hconn hbroken
          | true =>
              simp only [call_bind, run_call, serveProcess, serveCommand, serveOn]
              cases hread : env.caller.answer (.blockOnRead (10 * timeoutUsec)) with
              | done bytes =>
                  exact run_pullFetched_process hc hconnected cpu eagerFetch mem hb rfl
              | elapsed =>
                  have hbroken : ¬ Kernel.Connected lib env.caller.answer := by
                    intro hconn
                    rcases hconn.completed (10 * timeoutUsec) with ⟨bytes, hdone⟩
                    rw [hread] at hdone
                    cases hdone
                  exact run_panic_process _ rfl fun hconn => absurd hconn hbroken
              | failed =>
                  have hbroken : ¬ Kernel.Connected lib env.caller.answer := by
                    intro hconn
                    rcases hconn.completed (10 * timeoutUsec) with ⟨bytes, hdone⟩
                    rw [hread] at hdone
                    cases hdone
                  exact run_unlockFail_process cpu rfl fun hconn => absurd hconn hbroken

theorem run_syscallRmap_process (hc : ReadsFor c env)
    (hfits : env.Fits lib) (machines : Machines Regs Rdma bufSize) (key target : UInt64)
    (eagerFetch : Bool) (mem : ProcessMemory Page) :
    PullLeaves lib machines machine self key target env c eagerFetch mem
      ((syscallRmap lib key target eagerFetch).run (serveProcess lib machine self env c)
        ({ machines := machines, request := none, read := none }, mem)) := by
  unfold syscallRmap
  simp only [invoke_bind, run_call, serveProcess, serveCommand, serveOn, serve,
    Function.update_eq_self]
  generalize hcpu : env.caller.answer .getCallingCpuId = cpu
  rcases lockCpu_eq lib cpu with ⟨_, hlock⟩ | ⟨hbeyond, hlock⟩
  case inr =>
    rw [hlock]
    simp only [call_bind, panic_bind, run_call, serveProcess, serveCommand, serveOn, serve,
      Function.update_eq_self]
    refine run_panic_process _ rfl fun hconn => ?_
    rw [← hcpu] at hbeyond
    exact absurd hconn.cpu hbeyond
  rw [hlock]
  simp only [invoke_bind, run_call, serveProcess, serveCommand, serveOn, serve,
    Function.update_eq_self]
  cases hcaller : env.caller.answer (.getGlobalCaller cpu) with
  | none =>
      have hbroken : ¬ Kernel.Connected lib env.caller.answer := by
        intro hconn
        have hsome := hconn.caller cpu
        rw [hcaller] at hsome
        cases hsome
      exact run_panic_process _ rfl fun hconn => absurd hconn hbroken
  | some _ =>
      simp only [expect_some, ret_bind, run_call, serveProcess, serveCommand, serveOn]
      cases hsent : env.caller.answer (.syncCall { machine := target, cpu := cpu }
          { machine := machine, cpu := cpu } .query (lib.usize.encode key)) with
      | false =>
          have hbroken : ¬ Kernel.Connected lib env.caller.answer := by
            intro hconn
            have htrue := hconn.sent { machine := target, cpu := cpu }
              { machine := machine, cpu := cpu } .query (lib.usize.encode key)
            rw [hsent] at htrue
            cases htrue
          exact run_unlockFail_process cpu rfl fun hconn => absurd hconn hbroken
      | true =>
          simp only [if_true, run_call, serveProcess, serveCommand]
          cases hreplied : (env.caller.answer (.blockOnCaller (10 * timeoutUsec))).isSome with
          | false =>
              have hbroken : ¬ Kernel.Connected lib env.caller.answer := by
                intro hconn
                have hsome := hconn.replied (10 * timeoutUsec)
                rw [hreplied] at hsome
                cases hsome
              exact run_unlockFail_process cpu rfl fun hconn => absurd hconn hbroken
          | true =>
              simp only [awaitReply, handleRequest_query hfits, run_call, serveProcess,
                serveCommand, serveOn, serve, Function.update_eq_self]
              cases hbuf : env.caller.answer .registerRecvBuf with
              | none =>
                  have hbroken : ¬ Kernel.Connected lib env.caller.answer := by
                    intro hconn
                    have hsome := hconn.received
                    rw [hbuf] at hsome
                    cases hsome
                  exact run_panic_process _ rfl fun hconn => absurd hconn hbroken
              | some _ =>
                  simp only [expect_some, ret_bind, queryDescriptorBuf_eq]
                  cases hb : (machines target).bundle key with
                  | none =>
                      simp only [Option.map_none, decode_queryReply_nil lib]
                      refine run_unlockFail_process cpu rfl fun _ d hoffers => ?_
                      rcases hoffers with ⟨b, hb', _⟩
                      rw [hb] at hb'
                      cases hb'
                  | some b =>
                      simp only [Option.map_some, lib.queryReply.decode_encode_nil]
                      exact run_pullReplied_process hc cpu eagerFetch mem hb rfl

end Pull

/-!
## A registration
-/

def CallEnv.registration (env : CallEnv Regs Rdma) (heapBase : Nat) (rdmaMeta : Rdma) :
    Registration Regs Rdma where
  heapStartAddr := heapBase
  task := env.caller.task
  rdmaMeta := rdmaMeta
  buf := env.caller.buf

inductive RegisterEnds (lib : KernelLib Regs Rdma) (s : ModuleState Regs Rdma bufSize)
    (self : Nat) (env : CallEnv Regs Rdma) (heapBase : Nat) :
    Outcome Int -> ModuleState Regs Rdma bufSize -> Prop where
  | recalled {key : UInt64} (hhint : s.hintOf self = some key) :
      RegisterEnds lib s self env heapBase (.returned key.toInt64.toInt) s
  | exhausted {msg : String} (hhint : s.hintOf self = none) :
      RegisterEnds lib s self env heapBase (.panicked msg) s
  | wasted {msg : String} {key : UInt64} {idGen : IdFactory} (hhint : s.hintOf self = none)
      (hid : s.idGen.allocOneId = some (key, idGen)) :
      RegisterEnds lib s self env heapBase (.panicked msg) { s with idGen := idGen }
  | registered {key : UInt64} {idGen : IdFactory} {rdmaMeta : Rdma}
      (hhint : s.hintOf self = none) (hid : s.idGen.allocOneId = some (key, idGen))
      (hmeta : env.caller.answer .newFromDcTargetPool = some rdmaMeta) :
      RegisterEnds lib s self env heapBase (.returned key.toInt64.toInt)
        ((({ s with idGen := idGen }.register lib key
          (env.registration heapBase rdmaMeta)).updateHandler self
            fun h => { h with privateHeapHint := some key }))

section Register

variable {lib : KernelLib Regs Rdma} {machine : UInt64} {self : Nat} {env : CallEnv Regs Rdma}
variable {c : Reader Regs Rdma Page}

theorem run_register_process (machines : Machines Regs Rdma bufSize) (heapBase : UInt64)
    (mem : ProcessMemory Page) :
    exists out s' st, (ioctrl lib (.register heapBase)).run
        (serveProcess lib machine self env c)
        ({ machines := machines, request := none, read := none }, mem) = (out, (st, mem)) ∧
      st.machines = Function.update machines machine s' ∧
      RegisterEnds lib (machines machine) self env heapBase.toNat out s' := by
  unfold ioctrl syscallRegisterMem registerHeap
  simp only [invoke_bind, run_call, serveProcess, serveCommand, serveOn, serve,
    Function.update_eq_self]
  cases hhint : (machines machine).hintOf self with
  | some key =>
      exact ⟨_, machines machine, _, rfl, (Function.update_eq_self _ _).symm, .recalled hhint⟩
  | none =>
      simp only [run_call, serveProcess, serveCommand, serveOn]
      cases hid : (machines machine).idGen.allocOneId with
      | none =>
          simp only [serve_allocOneId_none lib self env.caller _ hid, expect_none, panic_bind,
            run_panic]
          exact ⟨_, machines machine, _, rfl, rfl, .exhausted hhint⟩
      | some next =>
          rcases next with ⟨key, idGen⟩
          simp only [serve_allocOneId_some lib self env.caller _ hid]
          simp only [expect_some, ret_bind, call_bind, Prog.bind_assoc, run_call, serveProcess,
            serveCommand, serveOn, serve, Function.update_self, Function.update_idem]
          cases hmeta : env.caller.answer .newFromDcTargetPool with
          | none =>
              simp only [expect_none, panic_bind, run_panic]
              exact ⟨_, _, _, rfl, rfl, .wasted hhint hid⟩
          | some rdmaMeta =>
              simp only [expect_some, ret_bind]
              refine ⟨_, _, _, rfl, ?_, .registered hhint hid hmeta⟩
              simp only [serveCommand, serveOn, serve, Function.update_self, Function.update_idem]
              rfl

end Register

/-!
## A remote registration
-/

def KernelOp.Inert : KernelOp Regs Rdma -> Prop
  | .getPrivateHint => True
  | .queryDescriptorBuf _ => True
  | o => o.External

section Handlers

variable (lib : KernelLib Regs Rdma)

theorem serve_inert {o : KernelOp Regs Rdma} (ho : o.Inert) (self : Nat)
    (env : Surroundings Regs Rdma) (s : ModuleState Regs Rdma bufSize) :
    (serve lib self env s o).2.1 = s := by
  cases o using KernelOp.byKind with
  | external o ho => rw [serve_external lib self env s ho]
  | getPrivateHint => rfl
  | queryDescriptorBuf key => rfl
  | _ => exact ho.elim

theorem machines_serveOn {o : KernelOp Regs Rdma} (ho : o.Inert) (machine : UInt64) (self : Nat)
    (env : Surroundings Regs Rdma) (st : Session Regs Rdma bufSize) :
    (serveOn lib machine self env o st).2.machines = st.machines := by
  have hsame : Function.update st.machines machine
      (serve lib self env (st.machines machine) o).2.1 = st.machines := by
    rw [serve_inert lib ho, Function.update_eq_self]
  cases o <;> first | rfl | exact hsame

theorem unlockFail_inert (cpu : CpuId) :
    (unlockFail cpu : KProg Regs Rdma Int).Only KernelOp.Inert :=
  ⟨True.intro, fun _ => True.intro⟩

theorem handleQuery_inert (input output : Bytes) :
    (handleQuery lib input output).Only KernelOp.Inert := by
  refine ⟨True.intro, fun buf => ?_⟩
  cases buf with
  | none => exact True.intro
  | some buf => exact True.intro

theorem remoteDescriptorFetch_inert (size phyStartAddr : UInt64) (session : SessionId) :
    (remoteDescriptorFetch size phyStartAddr session :
      KProg Regs Rdma (Option Bytes)).Only KernelOp.Inert := by
  refine ⟨True.intro, fun ss => (only_expect _ ss).bind fun _ => ?_⟩
  refine ⟨True.intro, fun qp => (only_expect _ qp).bind fun _ => ?_⟩
  refine ⟨True.intro, fun posted => ?_⟩
  cases posted with
  | false => exact True.intro
  | true =>
      refine ⟨True.intro, fun completion => ?_⟩
      cases completion <;> exact True.intro

theorem fetchApply_inert (req : RegisterRemoteReq) :
    (handleRemoteRegisterFetchApply lib req).Only KernelOp.Inert := by
  refine ⟨True.intro, fun cpu => (lockCpu_only lib cpu True.intro True.intro).bind fun _ => ?_⟩
  refine ⟨True.intro, fun caller => (only_expect _ caller).bind fun _ => ?_⟩
  refine (remoteDescriptorFetch_inert _ _ _).bind fun descBuf => ?_
  cases descBuf with
  | none => exact unlockFail_inert cpu
  | some descBuf =>
      simp only
      cases HeapDescriptor.deserialize lib descBuf with
      | error stop =>
          cases stop with
          | abort => exact True.intro
          | reject => exact unlockFail_inert cpu
      | ok des =>
          refine ⟨True.intro, fun info => ?_⟩
          cases info with
          | none => exact unlockFail_inert cpu
          | some info => exact ⟨True.intro, fun _ => True.intro⟩

theorem handleRemoteRegister_inert (input output : Bytes) :
    (handleRemoteRegister lib input output).Only KernelOp.Inert := by
  refine (fetchApply_inert lib _).bind fun heapHint => ?_
  simp only
  split <;> exact True.intro

theorem machines_handleRequest (env : CallEnv Regs Rdma)
    (machines : Machines Regs Rdma bufSize) (target : UInt64) (payload : Bytes) (rpc : RPCId) :
    (handleRequest lib env machines target payload rpc).2 = machines := by
  have hsent : forall p : KProg Regs Rdma (Bytes × Nat), p.Only KernelOp.Inert ->
      (sentReply (p.run (serveOn lib target 0 env.worker)
        ({ machines := machines, request := none, read := none } :
          Session Regs Rdma bufSize))).2 = machines := by
    intro p hp
    have hcall : forall (o : KernelOp Regs Rdma) (st : Session Regs Rdma bufSize), o.Inert ->
        st.machines = machines -> (serveOn lib target 0 env.worker o st).2.machines = machines := by
      intro o st ho hst
      rw [machines_serveOn lib ho, hst]
    have hkept : (p.run (serveOn lib target 0 env.worker)
        ({ machines := machines, request := none, read := none } :
          Session Regs Rdma bufSize)).2.machines = machines :=
      @Only.run_preserves _ _ _ _ _
        (fun st : Session Regs Rdma bufSize => st.machines = machines) _ hp hcall _ rfl
    unfold sentReply
    split <;> exact hkept
  cases rpc with
  | query => exact hsent _ (handleQuery_inert lib payload env.output)
  | remoteRegister => exact hsent _ (handleRemoteRegister_inert lib payload env.output)
  | nil => rfl
  | echo => rfl

end Handlers

def KernelOp.Outward (key : UInt64) : KernelOp Regs Rdma -> Prop
  | .getCallingCpuId | .globalLocks | .lock _ | .unlock _ | .getGlobalCaller _ | .getMacId
  | .syncCall _ _ _ _ | .blockOnCaller _ | .registerRecvBuf => True
  | .unregister key' => key' = key
  | _ => False

structure MayRelease (key : UInt64) (s s' : ModuleState Regs Rdma bufSize) : Prop where
  idGen : s'.idGen = s.idGen
  pool : s'.pool = s.pool
  handlers : s'.handlers = s.handlers
  bundle : (forall key', s'.bundle key' = s.bundle key') ∨
    forall key', s'.bundle key' = if key' = key then none else s.bundle key'

theorem MayRelease.refl (key : UInt64) (s : ModuleState Regs Rdma bufSize) :
    MayRelease key s s where
  idGen := rfl
  pool := rfl
  handlers := rfl
  bundle := Or.inl fun _ => rfl

theorem MayRelease.unregister {key : UInt64} {s s' : ModuleState Regs Rdma bufSize}
    (h : MayRelease key s s') :
    MayRelease key s { s' with service := s'.service.unregister key } where
  idGen := h.idGen
  pool := h.pool
  handlers := h.handlers
  bundle := by
    refine Or.inr fun key' => ?_
    rw [ModuleState.bundle_unregister]
    by_cases hkey : key' = key
    · rw [if_pos hkey, if_pos hkey]
    · rw [if_neg hkey, if_neg hkey]
      cases h.bundle with
      | inl hkept => exact hkept key'
      | inr hgone => rw [hgone, if_neg hkey]

inductive RemoteEnds (lib : KernelLib Regs Rdma) (s : ModuleState Regs Rdma bufSize)
    (env : CallEnv Regs Rdma) (heapBase : Nat) : ModuleState Regs Rdma bufSize -> Prop where
  | exhausted : RemoteEnds lib s env heapBase s
  | wasted {key : UInt64} {idGen : IdFactory} (hid : s.idGen.allocOneId = some (key, idGen)) :
      RemoteEnds lib s env heapBase { s with idGen := idGen }
  | lent {key : UInt64} {idGen : IdFactory} {rdmaMeta : Rdma}
      {s' : ModuleState Regs Rdma bufSize} (hid : s.idGen.allocOneId = some (key, idGen))
      (hmeta : env.caller.answer .newFromDcTargetPool = some rdmaMeta)
      (hlent : MayRelease key ({ s with idGen := idGen }.register lib key
        (env.registration heapBase rdmaMeta)) s') :
      RemoteEnds lib s env heapBase s'

section RegisterRemote

variable {lib : KernelLib Regs Rdma} {machine : UInt64} {self : Nat} {env : CallEnv Regs Rdma}
variable {c : Reader Regs Rdma Page}

theorem unlockFail_outward (cpu : CpuId) (key : UInt64) :
    (unlockFail cpu : KProg Regs Rdma Int).Only (KernelOp.Outward key) :=
  ⟨True.intro, fun _ => True.intro⟩

theorem remoteRegisterCall_outward (key remoteMachineId : UInt64) (buf : UInt64 × Nat) :
    (remoteRegisterCall lib key remoteMachineId buf).Only (KernelOp.Outward key) := by
  refine ⟨True.intro, fun source => ⟨True.intro, fun cpu => ?_⟩⟩
  refine (lockCpu_only lib cpu True.intro True.intro).bind fun _ => ?_
  refine ⟨True.intro, fun caller => (only_expect _ caller).bind fun _ => ?_⟩
  refine ⟨True.intro, fun m => ⟨True.intro, fun sent => ?_⟩⟩
  cases sent with
  | false => exact unlockFail_outward cpu key
  | true =>
      refine ⟨True.intro, fun reply => ?_⟩
      cases reply with
      | none => exact unlockFail_outward cpu key
      | some reply =>
          refine ⟨True.intro, fun received => (only_expect _ received).bind fun _ => ?_⟩
          cases lib.registerReply.decode reply with
          | none => exact unlockFail_outward cpu key
          | some d => exact ⟨True.intro, fun _ => ⟨rfl, fun _ => True.intro⟩⟩

def KeptButKey (machines : Machines Regs Rdma bufSize) (machine key : UInt64)
    (s : ModuleState Regs Rdma bufSize) (mem : ProcessMemory Page)
    (w : Session Regs Rdma bufSize × ProcessMemory Page) : Prop :=
  w.2 = mem ∧ exists s', w.1.machines = Function.update machines machine s' ∧
    MayRelease key s s'

theorem KeptButKey.serve {machines : Machines Regs Rdma bufSize} {key : UInt64}
    {s : ModuleState Regs Rdma bufSize} {mem : ProcessMemory Page} (o : KernelOp Regs Rdma)
    (w : Session Regs Rdma bufSize × ProcessMemory Page) (ho : o.Outward key)
    (h : KeptButKey machines machine key s mem w) :
    KeptButKey machines machine key s mem (serveProcess lib machine self env c o w).2 := by
  rcases w with ⟨st, mem'⟩
  rcases h with ⟨hmem, s', hmachines, hrelease⟩
  have hkept : forall st' : Session Regs Rdma bufSize, st'.machines = st.machines ->
      KeptButKey machines machine key s mem (st', mem') :=
    fun st' hst => ⟨hmem, s', hst.trans hmachines, hrelease⟩
  have hinert : forall o : KernelOp Regs Rdma, o.Inert ->
      (serveOn lib machine self env.caller o st).2.machines = st.machines :=
    fun o ho => machines_serveOn lib ho machine self env.caller st
  cases o with
  | getMacId => exact hkept _ rfl
  | syncCall session mySession rpc payload => exact hkept _ rfl
  | blockOnCaller timeoutUsec =>
      apply hkept
      show (awaitReply lib env _ st).2.machines = st.machines
      unfold awaitReply
      split
      · exact machines_handleRequest lib env st.machines _ _ _
      · rfl
  | unregister key' =>
      have hkey : key' = key := ho
      subst hkey
      refine ⟨hmem, _, ?_, hrelease.unregister⟩
      show Function.update st.machines machine
        { st.machines machine with service := (st.machines machine).service.unregister key' } = _
      rw [hmachines, Function.update_self, Function.update_idem]
  | getCallingCpuId => exact hkept _ (hinert .getCallingCpuId True.intro)
  | globalLocks => exact hkept _ (hinert .globalLocks True.intro)
  | lock cpu => exact hkept _ (hinert (.lock cpu) True.intro)
  | unlock cpu => exact hkept _ (hinert (.unlock cpu) True.intro)
  | getGlobalCaller cpu => exact hkept _ (hinert (.getGlobalCaller cpu) True.intro)
  | registerRecvBuf => exact hkept _ (hinert .registerRecvBuf True.intro)
  | _ => exact ho.elim

theorem run_registerRemote_process (machines : Machines Regs Rdma bufSize)
    (heapBase : UInt64) (machineId : UInt32) (mem : ProcessMemory Page) :
    exists out s' st, (ioctrl lib (.registerRemote heapBase machineId)).run
        (serveProcess lib machine self env c)
        ({ machines := machines, request := none, read := none }, mem) = (out, (st, mem)) ∧
      st.machines = Function.update machines machine s' ∧
      RemoteEnds lib (machines machine) env heapBase.toNat s' := by
  unfold ioctrl syscallRegisterRemoteHeap registerHeap
  simp only [invoke_bind, run_call, serveProcess, serveCommand, serveOn]
  cases hid : (machines machine).idGen.allocOneId with
  | none =>
      simp only [serve_allocOneId_none lib self env.caller _ hid, expect_none, panic_bind,
        run_panic]
      exact ⟨_, machines machine, _, rfl, rfl, .exhausted⟩
  | some next =>
      rcases next with ⟨key, idGen⟩
      simp only [serve_allocOneId_some lib self env.caller _ hid]
      simp only [expect_some, ret_bind, call_bind, Prog.bind_assoc, run_call, serveProcess,
        serveCommand, serveOn, serve, Function.update_self, Function.update_idem]
      cases hmeta : env.caller.answer .newFromDcTargetPool with
      | none =>
          simp only [expect_none, panic_bind, run_panic]
          exact ⟨_, _, _, rfl, rfl, .wasted hid⟩
      | some rdmaMeta =>
          simp only [expect_some, ret_bind]
          simp only [invoke_bind, run_call, serveProcess, serveCommand, serveOn, serve,
            Function.update_self, Function.update_idem]
          generalize hreg : ModuleState.register lib _ key _ = s'
          have hends : forall t, MayRelease key s' t ->
              RemoteEnds lib (machines machine) env heapBase.toNat t := by
            intro t ht
            rw [← hreg] at ht
            exact .lent hid hmeta ht
          cases s'.service.queryDescriptorBuf key with
          | none => exact ⟨_, s', _, rfl, rfl, hends s' (MayRelease.refl key s')⟩
          | some buf =>
              have hstart : KeptButKey machines machine key s' mem
                  ({ machines := Function.update machines machine s', request := none,
                     read := none }, mem) :=
                ⟨rfl, s', rfl, MayRelease.refl key s'⟩
              have hcall : (remoteRegisterCall lib key machineId.toUInt64 buf).Only
                  (KernelOp.Outward key) := remoteRegisterCall_outward key machineId.toUInt64 buf
              have hkept := hcall.run_preserves
                (fun o w ho hw =>
                  @KeptButKey.serve _ _ _ _ lib machine self env c _ _ _ _ o w ho hw)
                hstart
              rcases hkept with ⟨hmem, t, hmachines, hrelease⟩
              exact ⟨_, t, _, Prod.ext rfl (Prod.ext rfl hmem), hmachines, hends t hrelease⟩

end RegisterRemote
end Kernel
end Dmerge
