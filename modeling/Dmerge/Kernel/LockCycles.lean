import Mathlib.Logic.Relation
import Dmerge.Foundation.Run
import Dmerge.Kernel.Aborts

/-!
# Waiting across machines

A command that calls another machine holds the lock of its CPU until the reply is in.  A
machine has a fixed number of workers.  A worker handles one request after the other, and
for a remote registration it takes the lock of the CPU that it happens to run on, so all
requests that were sent to it wait for this lock.  There is no cycle of such waits when a
worker comes to a lock only above the callers whose requests are with it, in an order of
the CPUs of all machines.
-/

namespace Dmerge
namespace Kernel

open Foundation Memory Descriptors Producer Prog

variable {Regs Rdma : Type}

/-!
## The threads of all machines
-/

inductive ThreadId where
  | process (t : Nat)
  | worker (machine : UInt64) (i : Nat)
  deriving DecidableEq, Repr

/-- A request that was sent to a worker; `origin` tells the machine and the CPU of the
caller. -/
structure RpcRequest where
  target : UInt64
  worker : Nat
  origin : SessionId
  rpc : RPCId
  payload : Bytes
  deriving DecidableEq, Repr

def RpcRequest.addressee (request : RpcRequest) : ThreadId :=
  .worker request.target request.worker

inductive RequestPhase where
  | queued
  | taken
  | answered
  deriving DecidableEq, Repr

structure Thread (Regs Rdma : Type) where
  machine : UInt64
  /-- The request that a worker handles. -/
  serves : Option Nat
  /-- The request whose reply is awaited. -/
  asks : Option Nat
  /-- The CPU that the thread was told, until it has taken the lock of this CPU. -/
  told : Option CpuId
  rest : KProg Regs Rdma Returned

structure Net (Regs Rdma : Type) where
  /-- Who holds an entry of the `global_locks` of a machine. -/
  holder : SessionId -> Option ThreadId
  threads : ThreadId -> Option (Thread Regs Rdma)
  requests : List RpcRequest
  phase : Nat -> RequestPhase

inductive NetAct (Regs Rdma : Type) where
  | call (t : Nat) (machine : UInt64) (cmd : UInt32) (arg : UInt64) (user : UserMemory)
  /-- A worker takes up a request that was sent to it. -/
  | take (request : Nat) (output : Bytes)
  /-- A request that is sent now goes to the given worker of its target. -/
  | resume (t : ThreadId) (answer : Answers Regs Rdma) (worker : Nat)
  | finish (t : ThreadId)

namespace Net

def init : Net Regs Rdma where
  holder _ := none
  threads _ := none
  requests := []
  phase _ := .queued

def setThread (s : Net Regs Rdma) (t : ThreadId) (th : Option (Thread Regs Rdma)) :
    Net Regs Rdma :=
  { s with threads := Function.update s.threads t th }

def setPhase (s : Net Regs Rdma) (i : Nat) (phase : RequestPhase) : Net Regs Rdma :=
  { s with phase := Function.update s.phase i phase }

def queue (s : Net Regs Rdma) (t : ThreadId) : List RpcRequest :=
  s.requests.zipIdx.filterMap fun r =>
    if r.1.addressee = t ∧ s.phase r.2 ≠ .answered then some r.1 else none

def handler (lib : KernelLib Regs Rdma) (request : RpcRequest) (output : Bytes) :
    KProg Regs Rdma Returned :=
  match request.rpc with
  | .nil => (Entry.nil request.payload output).code lib
  | .echo => (Entry.echo request.payload output).code lib
  | .query => (Entry.query request.payload output).code lib
  | .remoteRegister => (Entry.remoteRegister request.payload output).code lib

/-- The answer to a call of a thread, with the state and the thread after it.  A lock that
is taken has to be waited for.  A reply may be late, lost or duplicated, and a wait for it
may time out. -/
def serve (lib : KernelLib Regs Rdma) (s : Net Regs Rdma) (t : ThreadId)
    (th : Thread Regs Rdma) (answer : Answers Regs Rdma) (worker : Nat) :
    (o : KernelOp Regs Rdma) -> Option (o.Res × Net Regs Rdma × Thread Regs Rdma)
  | .getCallingCpuId =>
      let cpu : CpuId := answer .getCallingCpuId
      some (cpu, s, { th with told := if cpu < lib.maxCoreCnt then some cpu else none })
  | .lock cpu =>
      if s.holder ⟨th.machine, cpu⟩ = none then
        some ((), { s with holder := Function.update s.holder ⟨th.machine, cpu⟩ (some t) },
          { th with told := none })
      else none
  | .unlock cpu =>
      some ((), { s with holder := Function.update s.holder ⟨th.machine, cpu⟩ none }, th)
  | .getMacId => some (th.machine, s, th)
  | .syncCall session mySession rpc payload =>
      if answer (.syncCall session mySession rpc payload) = true then
        some (true,
          { s with
              requests := s.requests ++
                [{ target := session.machine, worker, origin := mySession, rpc, payload }] },
          { th with asks := some s.requests.length })
      else some (false, s, th)
  | .blockOnCaller timeoutUsec =>
      some (answer (.blockOnCaller timeoutUsec), s, { th with asks := none })
  | o => some (answer o, s, th)

/-- A machine has the given number of workers. -/
def step (lib : KernelLib Regs Rdma) (workers : Nat) (s : Net Regs Rdma) :
    NetAct Regs Rdma -> Option (Net Regs Rdma × List Unit)
  | .call t machine cmd arg user =>
      if (s.threads (.process t)).isNone then
        some
          (s.setThread (.process t) (some
            { machine := machine
              serves := none
              asks := none
              told := none
              rest := (Entry.ioctrl cmd arg user).code lib }), [])
      else none
  | .take i output =>
      match s.requests[i]? with
      | none => none
      | some request =>
          if s.phase i = .queued ∧ request.worker < workers ∧
              (s.threads request.addressee).isNone then
            some
              ((s.setPhase i .taken).setThread request.addressee (some
                { machine := request.target
                  serves := some i
                  asks := none
                  told := none
                  rest := handler lib request output }), [])
          else none
  | .resume t answer worker =>
      match s.threads t with
      | none => none
      | some th =>
          match th.rest with
          | .call o k =>
              (s.serve lib t th answer worker o).map fun (r, s', th') =>
                (s'.setThread t (some { th' with rest := k r }), [])
          | _ => none
  | .finish t =>
      match s.threads t with
      | none => none
      | some th =>
          match th.rest with
          | .ret _ =>
              match th.serves with
              | some i => some ((s.setPhase i .answered).setThread t none, [])
              | none => some (s.setThread t none, [])
          | _ => none

/-!
## Who waits for whom
-/

def awaitedReply (s : Net Regs Rdma) (t : ThreadId) : Option Nat :=
  match s.threads t with
  | none => none
  | some th =>
      match th.rest with
      | .call (.blockOnCaller _) _ => th.asks
      | _ => none

def awaitedLock (s : Net Regs Rdma) (t : ThreadId) : Option SessionId :=
  match s.threads t with
  | none => none
  | some th =>
      match th.rest with
      | .call (.lock cpu) _ => some ⟨th.machine, cpu⟩
      | _ => none

/-- A caller that holds a lock waits for a reply, and the worker that must produce it
waits for an entry that the other thread holds. -/
def WaitsOn (s : Net Regs Rdma) (t t' : ThreadId) : Prop :=
  exists i request place,
    s.awaitedReply t = some i ∧ (exists mine, s.holder mine = some t) ∧
      s.requests[i]? = some request ∧ s.phase i ≠ .answered ∧
        s.awaitedLock request.addressee = some place ∧ s.holder place = some t'

def LockCycle (s : Net Regs Rdma) : Prop := exists t, Relation.TransGen s.WaitsOn t t

end Net

/-- A worker that is told its CPU is above the callers of all requests that are with it,
and a request that is sent to a worker on the way to its lock is sent from below. -/
def Ordered (lib : KernelLib Regs Rdma) (prec : SessionId -> SessionId -> Prop)
    (s : Net Regs Rdma) : NetAct Regs Rdma -> Prop
  | .resume t answer worker =>
      match s.threads t with
      | none => True
      | some th =>
          match th.rest with
          | .call .getCallingCpuId _ =>
              answer .getCallingCpuId < lib.maxCoreCnt -> forall request, request ∈ s.queue t ->
                prec request.origin ⟨th.machine, answer .getCallingCpuId⟩
          | .call (.syncCall session mySession rpc payload) _ =>
              match s.threads (.worker session.machine worker) with
              | none => True
              | some th' =>
                  answer (.syncCall session mySession rpc payload) = true ->
                    forall cpu, cpu ∈ th'.told -> prec mySession ⟨th'.machine, cpu⟩
          | _ => True
  | _ => True

/-!
## Where the threads are

Each thread is at a state of the monitor.  The state tells which entry the thread
holds, and the CPU that the request of a caller names.
-/

structure Placed (prec : SessionId -> SessionId -> Prop) (s : Net Regs Rdma) (t : ThreadId)
    (th : Thread Regs Rdma) (g : CallState) : Prop where
  holds : forall p, s.holder p = some t <-> p.machine = th.machine ∧ g.lock = .held p.cpu
  machine : forall m, g.machine = some m -> m = th.machine
  asks : forall i, th.asks = some i -> exists request,
    s.requests[i]? = some request ∧ request.origin.machine = th.machine ∧
      g.lock = .held request.origin.cpu ∧ g.asked = true
  told : g.aborted = false -> g.lock = .free -> th.told = g.cpu
  above : forall cpu, th.told = some cpu -> forall request, request ∈ s.queue t ->
    prec request.origin ⟨th.machine, cpu⟩

def ReturnsFree (g : CallState) (out : Outcome Returned) : Prop :=
  forall a, out = .returned a -> ¬ g.Holding

structure NetInv (lib : KernelLib Regs Rdma) (prec : SessionId -> SessionId -> Prop)
    (s : Net Regs Rdma) : Prop where
  threads : forall t th, s.threads t = some th -> exists g,
    th.rest.Conforms (callMonitor lib).protocol ReturnsFree g ∧ Placed prec s t th g
  owned : forall p t, s.holder p = some t -> (s.threads t).isSome

/-- What a thread does leaves the entries of the others and the requests sent alone.  A
request is sent from below the lock that its worker comes to. -/
structure Undisturbing (prec : SessionId -> SessionId -> Prop) (s s' : Net Regs Rdma)
    (t : ThreadId) : Prop where
  requests : forall (i : Nat) (request : RpcRequest), s.requests[i]? = some request ->
    s'.requests[i]? = some request
  others : forall t', t' ≠ t -> forall p, s'.holder p = some t' <-> s.holder p = some t'
  queue : forall t' request, request ∈ s'.queue t' -> request ∈ s.queue t' ∨
    forall th, s.threads t' = some th -> forall cpu, th.told = some cpu ->
      prec request.origin ⟨th.machine, cpu⟩

section Steps

variable {lib : KernelLib Regs Rdma} {prec : SessionId -> SessionId -> Prop} {workers : Nat}
variable {s s' : Net Regs Rdma} {t : ThreadId} {th : Thread Regs Rdma} {g : CallState}

theorem mem_queue {request : RpcRequest} : request ∈ s.queue t <->
    exists i, s.requests[i]? = some request ∧ request.addressee = t ∧ s.phase i ≠ .answered := by
  unfold Net.queue
  rw [List.mem_filterMap]
  constructor
  · rintro ⟨⟨r, i⟩, hin, hsome⟩
    split at hsome
    · next hpending =>
        cases hsome
        exact ⟨i, List.mem_zipIdx_iff_getElem?.mp hin, hpending.1, hpending.2⟩
    · cases hsome
  · rintro ⟨i, hin, hpending⟩
    exact ⟨(request, i), List.mem_zipIdx_iff_getElem?.mpr hin, if_pos hpending⟩

theorem queue_setPhase {i : Nat} {phase : RequestPhase}
    (hphase : phase = .answered ∨ s.phase i ≠ .answered) {request : RpcRequest}
    (h : request ∈ (s.setPhase i phase).queue t) : request ∈ s.queue t := by
  rcases mem_queue.mp h with ⟨j, hin, haddressee, hpending⟩
  refine mem_queue.mpr ⟨j, hin, haddressee, ?_⟩
  have hpending : Function.update s.phase i phase j ≠ .answered := hpending
  by_cases hj : j = i
  · rw [hj, Function.update_self] at hpending
    rw [hj]
    exact hphase.resolve_left hpending
  · rwa [Function.update_of_ne hj] at hpending

/-- Only the request that is sent now is new. -/
theorem queue_send {request r : RpcRequest} {t' : ThreadId}
    (hr : r ∈ Net.queue { s with requests := s.requests ++ [request] } t') :
    r ∈ s.queue t' ∨ r = request ∧ t' = request.addressee := by
  rcases mem_queue.mp hr with ⟨i, hin, haddressee, hpending⟩
  have hin : (s.requests ++ [request])[i]? = some r := hin
  by_cases hi : i < s.requests.length
  · rw [List.getElem?_append_left hi] at hin
    exact Or.inl (mem_queue.mpr ⟨i, hin, haddressee, hpending⟩)
  · rw [List.getElem?_append_right (Nat.not_lt.mp hi)] at hin
    have hr : r = request := List.mem_singleton.mp (List.mem_of_getElem? hin)
    rw [hr] at haddressee
    exact Or.inr ⟨hr, haddressee.symm⟩

theorem Undisturbing.refl (s : Net Regs Rdma) (t : ThreadId) : Undisturbing prec s s t where
  requests _ _ h := h
  others _ _ _ := Iff.rfl
  queue _ _ h := Or.inl h

theorem Placed.keep {t' : ThreadId} (h : Placed prec s t' th g) (hth : s.threads t' = some th)
    (hkeeps : Undisturbing prec s s' t) (hne : t' ≠ t) : Placed prec s' t' th g where
  holds p := (hkeeps.others t' hne p).trans (h.holds p)
  machine := h.machine
  asks i hi := by
    rcases h.asks i hi with ⟨request, hin, hrest⟩
    exact ⟨request, hkeeps.requests i request hin, hrest⟩
  told := h.told
  above cpu hcpu request hin := by
    cases hkeeps.queue t' request hin with
    | inl hold => exact h.above cpu hcpu request hold
    | inr hbelow => exact hbelow th hth cpu hcpu

def KernelOp.Bystander : KernelOp Regs Rdma -> Prop
  | .lock _ | .unlock _ | .getMacId | .getCallingCpuId | .syncCall _ _ _ _
  | .blockOnCaller _ => False
  | _ => True

structure SamePlace (g g' : CallState) : Prop where
  cpu : g'.cpu = g.cpu
  machine : g'.machine = g.machine
  lock : g'.lock = g.lock
  asked : g'.asked = g.asked
  aborted : g'.aborted = false -> g.aborted = false

theorem samePlace_after {o : KernelOp Regs Rdma} (ho : o.Bystander) (r : o.Res) :
    SamePlace g (CallState.after lib g o r) := by
  unfold CallState.after
  split
  · exact ⟨rfl, rfl, rfl, rfl, fun h => by cases h⟩
  · cases o with
    | accessInfoNew machineInfo => cases r <;> exact ⟨rfl, rfl, rfl, rfl, id⟩
    | lock cpu => exact ho.elim
    | unlock cpu => exact ho.elim
    | getMacId => exact ho.elim
    | getCallingCpuId => exact ho.elim
    | syncCall session mySession rpc payload => exact ho.elim
    | blockOnCaller timeoutUsec => exact ho.elim
    | _ => exact ⟨rfl, rfl, rfl, rfl, id⟩

theorem Placed.same {g' : CallState} (h : Placed prec s t th g) (hsame : SamePlace g g') :
    Placed prec s t th g' where
  holds p := by
    rw [hsame.lock]
    exact h.holds p
  machine m hm := h.machine m (by rw [← hsame.machine, hm])
  asks i hi := by
    rw [hsame.lock, hsame.asked]
    exact h.asks i hi
  told hclean hfree := by
    rw [hsame.lock] at hfree
    rw [hsame.cpu]
    exact h.told (hsame.aborted hclean) hfree
  above := h.above

/-- A thread that awaits a reply holds its entry and has asked. -/
theorem Placed.asks_none (h : Placed prec s t th g) (hquiet : g.lock = .free ∨ g.asked = false) :
    th.asks = none := by
  cases hi : th.asks with
  | none => rfl
  | some i =>
      rcases h.asks i hi with ⟨_, _, _, hheld, hasked⟩
      cases hquiet with
      | inl hfree =>
          rw [hfree] at hheld
          cases hheld
      | inr hnot =>
          rw [hnot] at hasked
          cases hasked

theorem Undisturbing.setHolder {q : SessionId} {x : Option ThreadId}
    (hbefore : s.holder q = none ∨ s.holder q = some t) (hx : x = none ∨ x = some t) :
    Undisturbing prec s { s with holder := Function.update s.holder q x } t := by
  refine ⟨fun _ _ hin => hin, ?_, fun _ _ hin => Or.inl hin⟩
  intro t' hne p
  show Function.update s.holder q x p = some t' <-> _
  by_cases hp : p = q
  · have hother : forall y : Option ThreadId, y = none ∨ y = some t -> y ≠ some t' := by
      rintro y (rfl | rfl) heq
      · cases heq
      · exact hne (Option.some.inj heq).symm
    rw [hp, Function.update_self]
    exact iff_of_false (hother x hx) (hother _ hbefore)
  · rw [Function.update_of_ne hp]

theorem Placed.lock (h : Placed prec s t th g) {cpu : CpuId} (hfree : g.lock = .free)
    (hnone : s.holder ⟨th.machine, cpu⟩ = none) :
    Undisturbing prec s
        { s with holder := Function.update s.holder ⟨th.machine, cpu⟩ (some t) } t ∧
      Placed prec { s with holder := Function.update s.holder ⟨th.machine, cpu⟩ (some t) } t
        { th with told := none } { g with lock := .held cpu } := by
  constructor
  · exact Undisturbing.setHolder (Or.inl hnone) (Or.inr rfl)
  · constructor
    · intro p
      show Function.update s.holder _ (some t) p = some t <-> _
      by_cases hp : p = ⟨th.machine, cpu⟩
      · subst hp
        rw [Function.update_self]
        exact ⟨fun _ => ⟨rfl, rfl⟩, fun _ => rfl⟩
      · rw [Function.update_of_ne hp, h.holds p, hfree]
        constructor
        · intro heq
          cases heq.2
        · intro heq
          rcases heq with ⟨hmachine, hcpu⟩
          cases p with
          | mk machine cpu' =>
              cases hmachine
              cases hcpu
              exact absurd rfl hp
    · exact h.machine
    · intro i hi
      have hi : th.asks = some i := hi
      rw [h.asks_none (Or.inl hfree)] at hi
      cases hi
    · intro _ hheld
      cases hheld
    · intro cpu' hcpu
      cases hcpu

theorem Placed.unlock (h : Placed prec s t th g) {cpu : CpuId} (hheld : g.lock = .held cpu)
    (hasked : g.asked = false) :
    Undisturbing prec s { s with holder := Function.update s.holder ⟨th.machine, cpu⟩ none } t ∧
      Placed prec { s with holder := Function.update s.holder ⟨th.machine, cpu⟩ none } t th
        { g with lock := .returned cpu } := by
  have hmine : s.holder ⟨th.machine, cpu⟩ = some t := (h.holds _).mpr ⟨rfl, hheld⟩
  constructor
  · exact Undisturbing.setHolder (Or.inr hmine) (Or.inl rfl)
  · constructor
    · intro p
      show Function.update s.holder _ none p = some t <-> _
      by_cases hp : p = ⟨th.machine, cpu⟩
      · subst hp
        rw [Function.update_self]
        exact ⟨fun heq => (by cases heq), fun heq => (by cases heq.2)⟩
      · rw [Function.update_of_ne hp, h.holds p, hheld]
        constructor
        · intro heq
          rcases heq with ⟨hmachine, hcpu⟩
          cases p with
          | mk machine cpu' =>
              cases hmachine
              cases hcpu
              exact absurd rfl hp
        · intro heq
          cases heq.2
    · exact h.machine
    · intro i hi
      rw [h.asks_none (Or.inr hasked)] at hi
      cases hi
    · intro _ hfree
      cases hfree
    · exact h.above

theorem Placed.send (h : Placed prec s t th g) {mySession : SessionId}
    (hheld : g.lock = .held mySession.cpu) (hmachine : g.machine = some mySession.machine)
    {request : RpcRequest} (horigin : request.origin = mySession)
    (hth : s.threads t = some th)
    (hbelow : forall th', s.threads request.addressee = some th' -> forall cpu,
      th'.told = some cpu -> prec mySession ⟨th'.machine, cpu⟩) :
    Undisturbing prec s { s with requests := s.requests ++ [request] } t ∧
      Placed prec { s with requests := s.requests ++ [request] } t
        { th with asks := some s.requests.length } { g with asked := true } := by
  have hkeeps : forall (i : Nat) (r : RpcRequest), s.requests[i]? = some r ->
      (s.requests ++ [request])[i]? = some r := by
    intro i r hr
    rw [List.getElem?_append_left (List.getElem?_eq_some_iff.mp hr).1]
    exact hr
  have hqueue : forall t' r, r ∈ Net.queue { s with requests := s.requests ++ [request] } t' ->
      r ∈ s.queue t' ∨ forall th', s.threads t' = some th' -> forall cpu,
        th'.told = some cpu -> prec r.origin ⟨th'.machine, cpu⟩ := by
    intro t' r hr
    rcases queue_send hr with hold | ⟨rfl, rfl⟩
    · exact Or.inl hold
    · rw [horigin]
      exact Or.inr hbelow
  constructor
  · exact ⟨hkeeps, fun _ _ _ => Iff.rfl, hqueue⟩
  · constructor
    · exact h.holds
    · exact h.machine
    · intro i hi
      cases hi
      refine ⟨request, List.getElem?_concat_length, ?_, ?_, rfl⟩
      · rw [horigin]
        exact h.machine _ hmachine
      · rw [horigin]
        exact hheld
    · exact h.told
    · intro cpu hcpu r hr
      cases hqueue t r hr with
      | inl hold => exact h.above cpu hcpu r hold
      | inr hnew => exact hnew th hth cpu hcpu

theorem Placed.serve (h : Placed prec s t th g) (hth : s.threads t = some th)
    {o : KernelOp Regs Rdma} {k : o.Res -> KProg Regs Rdma Returned}
    (hrest : th.rest = .call o k) (hmay : g.may o) {answer : Answers Regs Rdma} {worker : Nat}
    (hordered : Ordered lib prec s (.resume t answer worker))
    {r : o.Res} {th' : Thread Regs Rdma}
    (hserve : s.serve lib t th answer worker o = some (r, s', th')) :
    s'.threads = s.threads ∧ Undisturbing prec s s' t ∧
      Placed prec s' t th' (CallState.after lib g o r) := by
  unfold Ordered at hordered
  simp only [hth, hrest] at hordered
  by_cases hlocal : o.Bystander
  · have hanswer : s.serve lib t th answer worker o = some (answer o, s, th) := by
      cases o <;> first | rfl | exact hlocal.elim
    rw [hanswer] at hserve
    cases hserve
    exact ⟨rfl, Undisturbing.refl s t, h.same (samePlace_after hlocal _)⟩
  · cases o with
    | lock cpu =>
        simp only [Net.serve] at hserve
        split at hserve
        · next hnone =>
            cases hserve
            exact ⟨rfl, h.lock hmay.2.1 hnone⟩
        · cases hserve
    | unlock cpu =>
        cases hserve
        exact ⟨rfl, h.unlock hmay.2.1 hmay.2.2⟩
    | getMacId =>
        cases hserve
        refine ⟨rfl, Undisturbing.refl s t, h.holds, ?_, h.asks, h.told, h.above⟩
        intro m hm
        exact (Option.some.inj hm).symm
    | getCallingCpuId =>
        cases hserve
        have hfree : g.lock = .free := hmay.2
        have hasks : forall i, th.asks ≠ some i := by
          intro i hi
          rw [h.asks_none (Or.inl hfree)] at hi
          cases hi
        by_cases hcpu : answer .getCallingCpuId < lib.maxCoreCnt
        · have hafter : CallState.after lib g .getCallingCpuId (answer .getCallingCpuId) =
              { g with cpu := some (answer .getCallingCpuId) } := by
            apply if_neg
            intro haborts
            exact absurd (of_decide_eq_true haborts) (Nat.not_le.mpr hcpu)
          rw [hafter, if_pos hcpu]
          refine ⟨rfl, Undisturbing.refl s t, h.holds, h.machine,
            fun i hi => absurd hi (hasks i), fun _ _ => rfl, ?_⟩
          intro cpu htold
          cases htold
          exact hordered hcpu
        · have hafter : CallState.after lib g .getCallingCpuId (answer .getCallingCpuId) =
              { g with aborted := true } := by
            apply if_pos
            exact decide_eq_true (Nat.not_lt.mp hcpu)
          rw [hafter, if_neg hcpu]
          exact ⟨rfl, Undisturbing.refl s t, h.holds, h.machine,
            fun i hi => absurd hi (hasks i), fun hclean => (by cases hclean),
            fun cpu htold => by cases htold⟩
    | syncCall session mySession rpc payload =>
        simp only [Net.serve] at hserve
        split at hserve
        · next hsent =>
            cases hserve
            refine ⟨rfl, h.send hmay.2.1 hmay.2.2.1 rfl hth ?_⟩
            intro th' hth' cpu hcpu
            have hworker : s.threads (.worker session.machine worker) = some th' := hth'
            simp only [hworker] at hordered
            exact hordered hsent cpu hcpu
        · cases hserve
          refine ⟨rfl, Undisturbing.refl s t, h.holds, h.machine, ?_, h.told, h.above⟩
          intro i hi
          rw [h.asks_none (Or.inr hmay.2.2.2)] at hi
          cases hi
    | blockOnCaller timeoutUsec =>
        cases hserve
        refine ⟨rfl, Undisturbing.refl s t, h.holds, h.machine, ?_, h.told, h.above⟩
        intro i hi
        cases hi
    | _ => exact absurd True.intro hlocal

theorem Placed.setThread {t' : ThreadId} (h : Placed prec s t' th g)
    (x : Option (Thread Regs Rdma)) : Placed prec (s.setThread t x) t' th g :=
  ⟨h.holds, h.machine, h.asks, h.told, h.above⟩

theorem Placed.setRest (h : Placed prec s t th g) (rest : KProg Regs Rdma Returned) :
    Placed prec s t { th with rest := rest } g :=
  ⟨h.holds, h.machine, h.asks, h.told, h.above⟩

theorem code_conforms (e : Entry) :
    (e.code lib).Conforms (callMonitor lib).protocol ReturnsFree CallState.start := by
  by_cases hadmissible : e.Admissible lib
  · apply (Entry.code_tracked hadmissible).weaken
    intro g out hends a hreturned
    subst hreturned
    exact hends.2
  · rw [Entry.code_inadmissible hadmissible]
    intro a hreturned
    cases hreturned

theorem handler_conforms (request : RpcRequest) (output : Bytes) :
    (Net.handler lib request output).Conforms (callMonitor lib).protocol ReturnsFree
      CallState.start := by
  unfold Net.handler
  cases request.rpc with
  | nil => exact code_conforms (.nil request.payload output)
  | echo => exact code_conforms (.echo request.payload output)
  | query => exact code_conforms (.query request.payload output)
  | remoteRegister => exact code_conforms (.remoteRegister request.payload output)

theorem NetInv.replace (h : NetInv lib prec s) (hthreads : s'.threads = s.threads)
    (hkeeps : Undisturbing prec s s' t) {x : Option (Thread Regs Rdma)}
    (hmine : forall th, x = some th -> exists g,
      th.rest.Conforms (callMonitor lib).protocol ReturnsFree g ∧ Placed prec s' t th g)
    (hgone : x = none -> forall p, s'.holder p ≠ some t) :
    NetInv lib prec (s'.setThread t x) := by
  constructor
  · intro t' th' hth
    have hth : Function.update s'.threads t x t' = some th' := hth
    by_cases ht : t' = t
    · subst ht
      rw [Function.update_self] at hth
      rcases hmine th' hth with ⟨g, hconf, hplaced⟩
      exact ⟨g, hconf, hplaced.setThread x⟩
    · rw [Function.update_of_ne ht, hthreads] at hth
      rcases h.threads t' th' hth with ⟨g, hconf, hplaced⟩
      exact ⟨g, hconf, (hplaced.keep hth hkeeps ht).setThread x⟩
  · intro p t' hp
    have hp : s'.holder p = some t' := hp
    show (Function.update s'.threads t x t').isSome
    by_cases ht : t' = t
    · subst ht
      rw [Function.update_self, Option.isSome_iff_ne_none]
      intro hnone
      exact hgone hnone p hp
    · rw [Function.update_of_ne ht, hthreads]
      exact h.owned p t' ((hkeeps.others t' ht p).mp hp)

theorem NetInv.enter (h : NetInv lib prec s) (hnew : (s.threads t).isNone)
    (hconf : th.rest.Conforms (callMonitor lib).protocol ReturnsFree CallState.start)
    (hasks : th.asks = none) (htold : th.told = none) :
    NetInv lib prec (s.setThread t (some th)) := by
  have hnone : forall p, s.holder p ≠ some t := by
    intro p hp
    have hsome := h.owned p t hp
    rw [Option.isNone_iff_eq_none.mp hnew] at hsome
    cases hsome
  have hplaced : Placed prec s t th CallState.start := by
    refine ⟨fun p => ⟨fun hp => absurd hp (hnone p), fun hp => (by cases hp.2)⟩,
      fun m hm => (by cases hm), ?_, fun _ _ => htold, ?_⟩
    · intro i hi
      rw [hasks] at hi
      cases hi
    · intro cpu hcpu
      rw [htold] at hcpu
      cases hcpu
  apply h.replace rfl (Undisturbing.refl s t)
  · rintro th' hth
    cases hth
    exact ⟨CallState.start, hconf, hplaced⟩
  · intro hx
    cases hx

theorem NetInv.proceed (h : NetInv lib prec s) (hthreads : s'.threads = s.threads)
    (hkeeps : Undisturbing prec s s' t)
    (hconf : th.rest.Conforms (callMonitor lib).protocol ReturnsFree g)
    (hplaced : Placed prec s' t th g) : NetInv lib prec (s'.setThread t (some th)) := by
  apply h.replace hthreads hkeeps
  · rintro th' hth
    cases hth
    exact ⟨g, hconf, hplaced⟩
  · intro hx
    cases hx

theorem NetInv.leave (h : NetInv lib prec s) (hth : s.threads t = some th) {a : Returned}
    (hret : th.rest = .ret a) : NetInv lib prec (s.setThread t none) := by
  rcases h.threads t th hth with ⟨g, hconf, hplaced⟩
  rw [hret] at hconf
  have hfree : ¬ g.Holding := hconf a rfl
  apply h.replace rfl (Undisturbing.refl s t)
  · intro th' hx
    cases hx
  · intro _ p hp
    exact hfree ⟨p.cpu, ((hplaced.holds p).mp hp).2⟩

theorem NetInv.setPhase (h : NetInv lib prec s) {i : Nat} {phase : RequestPhase}
    (hphase : phase = .answered ∨ s.phase i ≠ .answered) :
    NetInv lib prec (s.setPhase i phase) := by
  constructor
  · intro t th hth
    rcases h.threads t th hth with ⟨g, hconf, hplaced⟩
    refine ⟨g, hconf, hplaced.holds, hplaced.machine, hplaced.asks, hplaced.told, ?_⟩
    intro cpu hcpu request hin
    exact hplaced.above cpu hcpu request (queue_setPhase hphase hin)
  · exact h.owned

theorem NetInv.step (h : NetInv lib prec s) {a : NetAct Regs Rdma} {now : List Unit}
    (hordered : Ordered lib prec s a) (hstep : s.step lib workers a = some (s', now)) :
    NetInv lib prec s' := by
  cases a with
  | call t machine cmd arg user =>
      simp only [Net.step] at hstep
      split at hstep
      · next hnew =>
          cases hstep
          exact h.enter hnew (code_conforms (.ioctrl cmd arg user)) rfl rfl
      · cases hstep
  | take i output =>
      simp only [Net.step] at hstep
      split at hstep
      · cases hstep
      · next request hin =>
          split at hstep
          · next hguard =>
              cases hstep
              have hpending : s.phase i ≠ .answered := by
                rw [hguard.1]
                decide
              exact (h.setPhase (Or.inr hpending)).enter hguard.2.2
                (handler_conforms request output) rfl rfl
          · cases hstep
  | resume t answer worker =>
      simp only [Net.step] at hstep
      split at hstep
      · cases hstep
      · next th hth =>
          split at hstep
          · next o k hrest =>
              rcases Option.map_eq_some_iff.mp hstep with ⟨⟨r, s1, th'⟩, hserve, heq⟩
              cases heq
              rcases h.threads t th hth with ⟨g, hconf, hplaced⟩
              rw [hrest] at hconf
              rcases hplaced.serve hth hrest hconf.1 hordered hserve with
                ⟨hthreads, hkeeps, hserved⟩
              exact h.proceed hthreads hkeeps (hconf.2 r _ rfl) (hserved.setRest (k r))
          · cases hstep
  | finish t =>
      simp only [Net.step] at hstep
      split at hstep
      · cases hstep
      · next th hth =>
          split at hstep
          · next a hret =>
              split at hstep
              · cases hstep
                exact (h.setPhase (Or.inl rfl)).leave hth hret
              · cases hstep
                exact h.leave hth hret
          · cases hstep

theorem netInv_init : NetInv lib prec Net.init where
  threads t th hth := by cases hth
  owned p t hp := by cases hp

theorem NetInv.holder_unique (h : NetInv lib prec s) {p p' : SessionId}
    (hp : s.holder p = some t) (hp' : s.holder p' = some t) : p = p' := by
  rcases Option.isSome_iff_exists.mp (h.owned p t hp) with ⟨th, hth⟩
  rcases h.threads t th hth with ⟨g, _, hplaced⟩
  rcases (hplaced.holds p).mp hp with ⟨hmachine, hheld⟩
  rcases (hplaced.holds p').mp hp' with ⟨hmachine', hheld'⟩
  rw [hheld] at hheld'
  cases p
  cases p'
  simp only [SessionId.mk.injEq]
  exact ⟨hmachine.trans hmachine'.symm, LockPhase.held.inj hheld'⟩

theorem awaitedReply_some {i : Nat} (h : s.awaitedReply t = some i) :
    exists th, s.threads t = some th ∧ th.asks = some i := by
  unfold Net.awaitedReply at h
  split at h
  · cases h
  · next th hth =>
      split at h
      · exact ⟨th, hth, h⟩
      · cases h

theorem awaitedLock_some {p : SessionId} (h : s.awaitedLock t = some p) :
    exists th k, s.threads t = some th ∧ p.machine = th.machine ∧
      th.rest = .call (.lock p.cpu) k := by
  unfold Net.awaitedLock at h
  split at h
  · cases h
  · next th hth =>
      split at h
      · next cpu k hrest =>
          cases h
          exact ⟨th, k, hth, rfl, hrest⟩
      · cases h

theorem NetInv.awaitedLock_above (h : NetInv lib prec s) {p : SessionId}
    (hlock : s.awaitedLock t = some p) {request : RpcRequest} (hin : request ∈ s.queue t) :
    prec request.origin p := by
  rcases awaitedLock_some hlock with ⟨th, k, hth, hmachine, hrest⟩
  rcases h.threads t th hth with ⟨g, hconf, hplaced⟩
  rw [hrest] at hconf
  rcases hconf.1 with ⟨hclean, hfree, hcpu⟩
  have htold : th.told = some p.cpu := by
    rw [hplaced.told (hclean.resolve_right id) hfree]
    exact hcpu
  have habove := hplaced.above p.cpu htold request hin
  rw [← hmachine] at habove
  exact habove

theorem NetInv.waitsOn (h : NetInv lib prec s) {t' : ThreadId} (hwaits : s.WaitsOn t t') :
    exists p p', s.holder p = some t ∧ s.holder p' = some t' ∧ prec p p' := by
  rcases hwaits with ⟨i, request, place, hreply, _, hin, hpending, hlock, hholder⟩
  rcases awaitedReply_some hreply with ⟨th, hth, hasks⟩
  rcases h.threads t th hth with ⟨g, _, hplaced⟩
  rcases hplaced.asks i hasks with ⟨request', hin', hmachine, hheld, _⟩
  rw [hin] at hin'
  cases hin'
  have hqueue : request ∈ s.queue request.addressee := mem_queue.mpr ⟨i, hin, rfl, hpending⟩
  exact ⟨request.origin, place, (hplaced.holds _).mpr ⟨hmachine, hheld⟩, hholder,
    h.awaitedLock_above hlock hqueue⟩

theorem NetInv.waitsOn_chain (h : NetInv lib prec s)
    (htrans : forall p q r, prec p q -> prec q r -> prec p r) {t' : ThreadId}
    (hchain : Relation.TransGen s.WaitsOn t t') :
    exists p p', s.holder p = some t ∧ s.holder p' = some t' ∧ prec p p' := by
  induction hchain with
  | single hwaits => exact h.waitsOn hwaits
  | tail _ hwaits ih =>
      rcases ih with ⟨p, q, hp, hq, hpq⟩
      rcases h.waitsOn hwaits with ⟨q', r, hq', hr, hqr⟩
      have hsame : q' = q := h.holder_unique hq' hq
      subst hsame
      exact ⟨p, r, hp, hr, htrans p q' r hpq hqr⟩

end Steps

/-- No cycle of waits is reached by a run in which, in some strict order of the CPUs of all
machines, a worker comes to its lock above the callers of all requests that are with it,
and no request is sent to it from elsewhere while it waits there. -/
theorem no_lock_cycle (lib : KernelLib Regs Rdma) (workers : Nat)
    (prec : SessionId -> SessionId -> Prop)
    (htrans : forall p q r, prec p q -> prec q r -> prec p r) (hirrefl : forall p, ¬ prec p p)
    {acts : List (NetAct Regs Rdma)} {s : Net Regs Rdma} {trace : List Unit}
    (hmeets : RunMeets (Net.step lib workers) (Ordered lib prec) Net.init acts)
    (hrun : runFrom (Net.step lib workers) Net.init acts = some (s, trace)) : ¬ s.LockCycle := by
  have hstep : forall (s : Net Regs Rdma) (past : List Unit) a s' now,
      NetInv lib prec s -> Ordered lib prec s a -> s.step lib workers a = some (s', now) ->
        NetInv lib prec s' := by
    intro s past a s' now hinv hordered hs
    exact hinv.step hordered hs
  have hinv : NetInv lib prec s := by
    apply runFrom_invariant hstep netInv_init hmeets hrun
    exact []
  intro hcycle
  rcases hcycle with ⟨t, hchain⟩
  rcases hinv.waitsOn_chain htrans hchain with ⟨p, p', hp, hp', hprec⟩
  rw [hinv.holder_unique hp hp'] at hprec
  exact hirrefl p' hprec

/-!
## Two machines that register heaps at each other
-/

def registerRemoteUser (machineId : Nat) : UserMemory := fun _ => toLE 8 0 ++ toLE 4 machineId

def onCpu (cpu : CpuId) : Answers UInt64 UInt64
  | .getCallingCpuId => cpu
  | .allocOneId => some 1
  | .queryDescriptorBuf _ => some (4096, 8)
  | o => obliging none [] o

/-- A thread makes its next calls on a CPU; it sends requests to worker 0. -/
def callsOn (t : ThreadId) (cpu : CpuId) (n : Nat) : List (NetAct UInt64 UInt64) :=
  List.replicate n (.resume t (onCpu cpu) 0)

/-- Machines 1 and 2 each send the other one a remote registration from CPU 0, and
the workers that handle the two requests come to their locks on a CPU. -/
def crossing (worker : CpuId) : List (NetAct UInt64 UInt64) :=
  [.call 0 1 5 4096 (registerRemoteUser 2), .call 1 2 5 4096 (registerRemoteUser 1)] ++
    callsOn (.process 0) 0 10 ++ callsOn (.process 1) 0 10 ++ [.take 0 [], .take 1 []] ++
    callsOn (.worker 2 0) worker 1 ++ callsOn (.worker 1 0) worker 1

instance Ordered.decidable {lib : KernelLib Regs Rdma} {prec : SessionId -> SessionId -> Prop}
    [forall p q, Decidable (prec p q)] (s : Net Regs Rdma) (a : NetAct Regs Rdma) :
    Decidable (Ordered lib prec s a) := by
  unfold Ordered
  split
  · split
    · exact isTrue True.intro
    · split
      · infer_instance
      · split
        · exact isTrue True.intro
        · infer_instance
      · exact isTrue True.intro
  · exact isTrue True.intro

def Net.waits (s : Net Regs Rdma) (processes : List Nat) :
    List (Option Nat) × List (Option SessionId × Option ThreadId) :=
  (processes.map fun t => s.awaitedReply (.process t),
    [1, 2].map fun machine => (s.awaitedLock (.worker machine 0), s.holder ⟨machine, 0⟩))

theorem no_lock_cycle_apart :
    exists s trace, runFrom (Net.step plainLib 2) Net.init (crossing 1) = some (s, trace) ∧
      s.waits [0, 1] = ([some 0, some 1],
        [(some ⟨1, 1⟩, some (.process 0)), (some ⟨2, 1⟩, some (.process 1))]) ∧
      ¬ s.LockCycle := by
  have hwaits : (runFrom (Net.step plainLib 2) Net.init (crossing 1)).map
      (fun r => r.1.waits [0, 1]) = some ([some 0, some 1],
        [(some ⟨1, 1⟩, some (.process 0)), (some ⟨2, 1⟩, some (.process 1))]) := by
    decide +kernel
  rcases Option.map_eq_some_iff.mp hwaits with ⟨⟨s, trace⟩, hrun, hs⟩
  refine ⟨s, trace, hrun, hs, ?_⟩
  apply no_lock_cycle plainLib 2 (fun p q => p.cpu < q.cpu) _ _ _ hrun
  · intro p q r hpq hqr
    exact Nat.lt_trans hpq hqr
  · intro p
    exact Nat.lt_irrefl p.cpu
  · decide +kernel

/-- Two processes hold CPU 0 of machines 1 and 2.  Each waits for the worker of the other
machine, which waits for the lock of the other process. -/
def Net.Crossed (s : Net Regs Rdma) (t t' i i' : Nat) : Prop :=
  s.waits [t, t'] = ([some i, some i'],
    [(some ⟨1, 0⟩, some (.process t)), (some ⟨2, 0⟩, some (.process t'))]) ∧
  [i, i'].map (fun j => s.requests[j]?.map RpcRequest.addressee) =
    [some (.worker 2 0), some (.worker 1 0)] ∧
  s.phase i ≠ .answered ∧ s.phase i' ≠ .answered

instance (s : Net Regs Rdma) (t t' i i' : Nat) : Decidable (s.Crossed t t' i i') :=
  inferInstanceAs (Decidable (_ ∧ _))

theorem Net.Crossed.lockCycle {s : Net Regs Rdma} {t t' i i' : Nat} (h : s.Crossed t t' i i') :
    s.LockCycle := by
  rcases h with ⟨hwaits, haddressees, hpending, hpending'⟩
  simp only [Net.waits, List.map_cons, List.map_nil, Prod.mk.injEq, List.cons.injEq]
    at hwaits haddressees
  rcases hwaits with ⟨⟨hask, hask', _⟩, ⟨hlock, hholder⟩, ⟨hlock', hholder'⟩, _⟩
  rcases Option.map_eq_some_iff.mp haddressees.1 with ⟨request, hin, haddressee⟩
  rcases Option.map_eq_some_iff.mp haddressees.2.1 with ⟨request', hin', haddressee'⟩
  rw [← haddressee] at hlock'
  rw [← haddressee'] at hlock
  have hfirst : s.WaitsOn (.process t) (.process t') :=
    ⟨i, request, ⟨2, 0⟩, hask, ⟨_, hholder⟩, hin, hpending, hlock', hholder'⟩
  have hsecond : s.WaitsOn (.process t') (.process t) :=
    ⟨i', request', ⟨1, 0⟩, hask', ⟨_, hholder'⟩, hin', hpending', hlock, hholder⟩
  exact ⟨.process t, Relation.TransGen.head hfirst (Relation.TransGen.single hsecond)⟩

/-- On one CPU of each machine, both workers wait for the lock of the other caller. -/
theorem not_no_lock_cycle_crossing :
    ¬ forall (acts : List (NetAct UInt64 UInt64)) s trace,
      runFrom (Net.step plainLib 2) Net.init acts = some (s, trace) -> ¬ s.LockCycle := by
  intro h
  have hcrossed : (runFrom (Net.step plainLib 2) Net.init (crossing 0)).map
      (fun r => decide (r.1.Crossed 0 1 0 1)) = some true := by
    decide +kernel
  rcases Option.map_eq_some_iff.mp hcrossed with ⟨⟨s, trace⟩, hrun, hs⟩
  exact h (crossing 0) s trace hrun (of_decide_eq_true hs).lockCycle

def pullAt (machineId : Nat) : UserMemory :=
  fun _ => toLE 4 1 ++ (toLE 4 machineId ++ toLE 4 0)

/-- Machines 1 and 2 query each other from CPU 0.  Worker 0 of each handles a remote
registration of another machine first, and comes to its lock on CPU 0. -/
def queryBehind : List (NetAct UInt64 UInt64) :=
  [.call 0 3 5 4096 (registerRemoteUser 2), .call 1 4 5 4096 (registerRemoteUser 1)] ++
    callsOn (.process 0) 1 10 ++ callsOn (.process 1) 1 10 ++
    [.call 2 1 1 4096 (pullAt 2), .call 3 2 1 4096 (pullAt 1)] ++
    callsOn (.process 2) 0 5 ++ callsOn (.process 3) 0 5 ++ [.take 0 [], .take 1 []] ++
    callsOn (.worker 2 0) 0 1 ++ callsOn (.worker 1 0) 0 1

/-- Callers that only query are no better off. -/
example : (runFrom (Net.step plainLib 2) Net.init queryBehind).map
    (fun r => decide (r.1.Crossed 2 3 2 3)) = some true := by
  decide +kernel

end Kernel
end Dmerge
