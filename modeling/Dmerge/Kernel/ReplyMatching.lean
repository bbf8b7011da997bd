import Dmerge.Kernel.CallProtocol

/-!
# Replies and requests

The commands that call other machines share the RPC endpoint of their CPU.  The
lock of the CPU lets one of them at a time send its request and wait, but a wait
ends with the next reply that arrives at the endpoint, and neither the request
nor the reply carries anything to match them by.
-/

namespace Dmerge
namespace Kernel

open Foundation Memory Descriptors Producer

variable {Regs Rdma : Type} {bufSize : Nat}

/-!
## The endpoint of a CPU
-/

/-- A request that was sent.  The tag tells apart two requests that ask for the
same; it is not on the wire. -/
structure SentRequest where
  tag : Nat
  machine : UInt64
  rpc : RPCId
  payload : Bytes
  deriving DecidableEq, Repr

structure Endpoint where
  /-- The handle whose command holds the lock. -/
  holder : Option Nat
  nextTag : Nat
  /-- The requests whose replies have not arrived. -/
  inflight : List SentRequest
  /-- The replies that have arrived, each with the request that it answers. -/
  inbox : List (SentRequest × Bytes)
  /-- The request of the command that waits. -/
  awaited : Option SentRequest
  /-- What the command of a handle took from the inbox. -/
  took : Nat -> Option (SentRequest × Bytes)

inductive CallEvent (Regs Rdma : Type) where
  /-- A wait for the reply to `awaited` took the reply to `answered`. -/
  | took (self : Nat) (awaited : Option SentRequest) (answered : SentRequest)
  | read (self : Nat) (req : Request) (answered : Option (SentRequest × Bytes))
      (machine pa sz : UInt64)
  | installed (self : Nat) (req : Request) (answered : Option (SentRequest × Bytes))
      (heap : HeapDataStruct Regs Rdma)
  | ended (self : Nat) (req : Request) (result : Int)
      (answered : Option (SentRequest × Bytes))

namespace Endpoint

def init : Endpoint where
  holder := none
  nextTag := 0
  inflight := []
  inbox := []
  awaited := none
  took _ := none

/-- What a call of a command does to the endpoint, with the answer that it gets.
The lock is granted when it is free.  A wait may give up at any time. -/
def exchange (cpu : CpuId) (self : Nat) (req : Request) (e : Endpoint) :
    (o : KernelOp Regs Rdma) -> o.Res -> Option (Endpoint × List (CallEvent Regs Rdma))
  | .getCallingCpuId, calling =>
      if (show Nat from calling) = cpu then some (e, []) else none
  | .lock _, _ => if e.holder = none then some ({ e with holder := some self }, []) else none
  | .unlock _, _ => some ({ e with holder := none }, [])
  | .syncCall session _ rpc payload, true =>
      let mine : SentRequest :=
        { tag := e.nextTag, machine := session.machine, rpc := rpc, payload := payload }
      some
        ({ e with
            nextTag := e.nextTag + 1
            inflight := e.inflight ++ [mine]
            awaited := some mine }, [])
  | .blockOnCaller _, none => some ({ e with awaited := none }, [])
  | .blockOnCaller _, some reply =>
      match e.inbox with
      | [] => none
      | (theirs, bytes) :: rest =>
          if bytes = reply then
            some
              ({ e with
                  inbox := rest
                  awaited := none
                  took := Function.update e.took self (some (theirs, reply)) },
                [.took self e.awaited theirs])
          else none
  | .postRead session pa sz, _ =>
      some (e, [.read self req (e.took self) session.machine pa sz])
  | .pushPublicHeap heap, _ => some (e, [.installed self req (e.took self) heap])
  | _, _ => some (e, [])

def notice (cpu : CpuId) (m : Machine Regs Rdma bufSize) (e : Endpoint) :
    Act Regs Rdma -> Option (Endpoint × List (CallEvent Regs Rdma))
  | .resume self env =>
      match m.running self with
      | some (req, .call o _) => e.exchange cpu self req o (env.answer o)
      | some (req, .ret result) =>
          some ({ e with took := Function.update e.took self none },
            [.ended self req result (e.took self)])
      | _ => some (e, [])
  | _ => some (e, [])

end Endpoint

/-!
## The commands of one CPU
-/

structure Cpu (Regs Rdma : Type) (bufSize : Nat) where
  cpu : CpuId
  machine : Machine Regs Rdma bufSize
  endpoint : Endpoint

inductive CpuAct (Regs Rdma : Type) where
  | act (a : Act Regs Rdma)
  /-- The reply to a request arrives, in any order and at any time. -/
  | deliver (i : Nat) (reply : Bytes)

namespace Cpu

def init (pool : Pool bufSize) (cpu : CpuId) : Cpu Regs Rdma bufSize where
  cpu := cpu
  machine := Machine.init pool
  endpoint := Endpoint.init

def step (lib : KernelLib Regs Rdma) (c : Cpu Regs Rdma bufSize) :
    CpuAct Regs Rdma -> Option (Cpu Regs Rdma bufSize × List (CallEvent Regs Rdma))
  | .act a =>
      match c.endpoint.notice c.cpu c.machine a with
      | none => none
      | some (endpoint, now) =>
          (c.machine.step lib a).map fun (machine, _) =>
            ({ c with machine := machine, endpoint := endpoint }, now)
  | .deliver i reply =>
      match c.endpoint.inflight[i]? with
      | none => none
      | some theirs =>
          some
            ({ c with endpoint := { c.endpoint with
                inflight := c.endpoint.inflight.eraseIdx i
                inbox := c.endpoint.inbox ++ [(theirs, reply)] } }, [])

end Cpu

/-- A command that sends finds no reply of an earlier request, and while it waits
with nothing arrived the reply that arrives is its own. -/
def Timely (c : Cpu Regs Rdma bufSize) : CpuAct Regs Rdma -> Prop
  | .act (.resume self _) =>
      match c.machine.running self with
      | some (_, .call (.syncCall _ _ _ _) _) => c.endpoint.inbox = []
      | _ => True
  | .deliver i _ =>
      match c.endpoint.awaited, c.endpoint.inbox with
      | some mine, [] => c.endpoint.inflight[i]? = some mine
      | _, _ => True
  | _ => True

instance (c : Cpu Regs Rdma bufSize) (a : CpuAct Regs Rdma) : Decidable (Timely c a) := by
  unfold Timely
  split
  · split <;> infer_instance
  · split <;> infer_instance
  · infer_instance

/-- The reply that a command acts on is the reply to its own request. -/
def CallEvent.Matched (lib : KernelLib Regs Rdma) : CallEvent Regs Rdma -> Prop
  | .took _ awaited answered => awaited = some answered
  | .read _ req answered machine pa sz => exists theirs reply d,
      answered = some (theirs, reply) ∧ Asks lib req theirs.machine theirs.rpc theirs.payload ∧
        lib.queryReply.decode reply = some d ∧ machine = theirs.machine ∧ pa = d.pa ∧ sz = d.sz
  | .installed _ req answered heap => exists theirs reply,
      answered = some (theirs, reply) ∧ Asks lib req theirs.machine theirs.rpc theirs.payload ∧
        theirs.payload = lib.usize.encode heap.id
  | .ended _ req result answered => forall heapHint machineId eagerFetch,
      req = .pull heapHint machineId eagerFetch -> result = 0 -> exists theirs reply,
        answered = some (theirs, reply) ∧ Asks lib req theirs.machine theirs.rpc theirs.payload

def Endpoint.Reflects (lib : KernelLib Regs Rdma) (self : Nat) (req : Request) (e : Endpoint) :
    CallPhase -> Prop
  | .outside => e.holder ≠ some self
  | .held => e.holder = some self
  | .asked => e.holder = some self ∧ exists mine,
      e.awaited = some mine ∧ Asks lib req mine.machine mine.rpc mine.payload ∧
        forall first, e.inbox.head? = some first -> first.1 = mine
  | .answered reply => e.holder = some self ∧ exists theirs,
      e.took self = some (theirs, reply) ∧ Asks lib req theirs.machine theirs.rpc theirs.payload
  | .failed => e.holder = some self
  | .released false => e.holder ≠ some self
  | .released true => e.holder ≠ some self ∧ exists theirs reply,
      e.took self = some (theirs, reply) ∧ Asks lib req theirs.machine theirs.rpc theirs.payload

/-- What a change of the endpoint leaves alone for a handle: the lock, the reply it
took, and the messages while it holds the lock. -/
structure Endpoint.Keeps (other : Nat) (e e' : Endpoint) : Prop where
  holder : e'.holder = some other <-> e.holder = some other
  took : e'.took other = e.took other
  wait : e.holder = some other -> e'.awaited = e.awaited ∧ e'.inbox = e.inbox

structure CallsMatched (lib : KernelLib Regs Rdma) (c : Cpu Regs Rdma bufSize)
    (past : List (CallEvent Regs Rdma)) : Prop where
  idle : forall self, c.machine.running self = none -> c.endpoint.holder ≠ some self
  command : forall self req p, c.machine.running self = some (req, p) ->
    p.Follows (callProtocol lib req) (CallEnds req)
      (fun g e => e.Reflects lib self req g) c.endpoint
  matched : forall e, e ∈ past -> e.Matched lib

section Endpoints

variable {lib : KernelLib Regs Rdma} {self other : Nat} {req : Request} {e e' : Endpoint}
variable {g : CallPhase}

theorem Endpoint.Reflects.stable (h : e.Reflects lib other req g) (hkeeps : e.Keeps other e') :
    e'.Reflects lib other req g := by
  rcases hkeeps with ⟨hholder, htook, hwait⟩
  cases g with
  | outside => exact fun hheld => h (hholder.mp hheld)
  | held => exact hholder.mpr h
  | asked =>
      rcases h with ⟨hheld, mine, hawaited, hasks, hhead⟩
      rcases hwait hheld with ⟨hsame, hinbox⟩
      refine ⟨hholder.mpr hheld, mine, ?_, hasks, ?_⟩
      · rw [hsame, hawaited]
      · rw [hinbox]
        exact hhead
  | answered reply =>
      rcases h with ⟨hheld, theirs, hreply, hasks⟩
      exact ⟨hholder.mpr hheld, theirs, by rw [htook, hreply], hasks⟩
  | failed => exact hholder.mpr h
  | released answered =>
      cases answered with
      | false => exact fun hheld => h (hholder.mp hheld)
      | true =>
          rcases h with ⟨hfree, theirs, reply, hreply, hasks⟩
          exact ⟨fun hheld => hfree (hholder.mp hheld), theirs, reply, by rw [htook, hreply],
            hasks⟩

theorem Endpoint.Reflects.holder (h : e.Reflects lib self req g) :
    e.holder = some self <-> g.Holds := by
  cases g with
  | outside => exact ⟨fun hheld => absurd hheld h, fun hg => hg.elim⟩
  | held => exact ⟨fun _ => True.intro, fun _ => h⟩
  | asked => exact ⟨fun _ => True.intro, fun _ => h.1⟩
  | answered reply => exact ⟨fun _ => True.intro, fun _ => h.1⟩
  | failed => exact ⟨fun _ => True.intro, fun _ => h⟩
  | released answered =>
      cases answered with
      | false => exact ⟨fun hheld => absurd hheld h, fun hg => hg.elim⟩
      | true => exact ⟨fun hheld => absurd hheld h.1, fun hg => hg.elim⟩

theorem keeps_of_held (hheld : e.holder = some self) (hne : other ≠ self)
    (hholder : e'.holder ≠ some other) (htook : e'.took other = e.took other) :
    e.Keeps other e' where
  holder := by
    constructor
    · intro h
      exact absurd h hholder
    · intro h
      rw [hheld] at h
      exact absurd (Option.some.inj h).symm hne
  took := htook
  wait h := by
    rw [hheld] at h
    exact absurd (Option.some.inj h).symm hne

theorem Endpoint.Keeps.refl : e.Keeps other e :=
  ⟨Iff.rfl, rfl, fun _ => ⟨rfl, rfl⟩⟩

section Exchange

variable {cpu : CpuId} {o : KernelOp Regs Rdma} {r : o.Res}
variable {now : List (CallEvent Regs Rdma)}

theorem exchange_keeps (hexchange : e.exchange cpu self req o r = some (e', now))
    (hmay : (callProtocol lib req).may g o) (hself : e.Reflects lib self req g)
    (hne : other ≠ self) : e.Keeps other e' := by
  have hne' : self ≠ other := Ne.symm hne
  cases o with
  | getCallingCpuId =>
      simp only [Endpoint.exchange] at hexchange
      split at hexchange
      · cases hexchange
        exact .refl
      · cases hexchange
  | lock lockCpu =>
      simp only [Endpoint.exchange] at hexchange
      split at hexchange
      · next hfree =>
          cases hexchange
          constructor
          · simp [hfree, hne']
          · rfl
          · exact fun _ => ⟨rfl, rfl⟩
      · cases hexchange
  | unlock lockCpu =>
      cases hexchange
      have hheld : e.holder = some self := by
        apply hself.holder.mpr
        rcases hmay with rfl | ⟨reply, rfl⟩
        · exact True.intro
        · exact True.intro
      exact keeps_of_held hheld hne (fun h => by cases h) rfl
  | syncCall session mySession rpc payload =>
      have hheld : e.holder = some self := by
        apply hself.holder.mpr
        rw [hmay.1]
        exact True.intro
      cases r with
      | false =>
          cases hexchange
          exact .refl
      | true =>
          cases hexchange
          exact keeps_of_held hheld hne (by simp [hheld, hne']) rfl
  | blockOnCaller timeoutUsec =>
      have hheld : e.holder = some self := by
        apply hself.holder.mpr
        rw [show g = .asked from hmay]
        exact True.intro
      cases r with
      | none =>
          cases hexchange
          exact keeps_of_held hheld hne (by simp [hheld, hne']) rfl
      | some reply =>
          simp only [Endpoint.exchange] at hexchange
          split at hexchange
          · cases hexchange
          · split at hexchange
            · cases hexchange
              exact keeps_of_held hheld hne (by simp [hheld, hne'])
                (Function.update_of_ne hne _ _)
            · cases hexchange
  | _ =>
      cases hexchange
      exact .refl

theorem exchange_reflects (hexchange : e.exchange cpu self req o r = some (e', now))
    (hmay : (callProtocol lib req).may g o) (hself : e.Reflects lib self req g)
    (htimely : forall session mySession rpc payload,
      o = .syncCall session mySession rpc payload -> e.inbox = []) :
    (exists g', (forall r' : o.Res, (o.External -> r' = r) ->
      (callProtocol lib req).next g o r' g') ∧ e'.Reflects lib self req g') ∧
        forall ev, ev ∈ now -> ev.Matched lib := by
  cases o with
  | getCallingCpuId =>
      simp only [Endpoint.exchange] at hexchange
      split at hexchange
      · cases hexchange
        exact ⟨⟨g, fun _ _ => rfl, hself⟩, fun ev hin => by cases hin⟩
      · cases hexchange
  | lock lockCpu =>
      simp only [Endpoint.exchange] at hexchange
      split at hexchange
      · cases hexchange
        exact ⟨⟨.held, fun _ _ => rfl, rfl⟩, fun ev hin => by cases hin⟩
      · cases hexchange
  | unlock lockCpu =>
      cases hexchange
      refine ⟨?_, fun ev hin => by cases hin⟩
      rcases hmay with rfl | ⟨reply, rfl⟩
      · exact ⟨.released false, fun _ _ => rfl, fun h => by cases h⟩
      · rcases hself with ⟨_, theirs, hreply, hasks⟩
        exact ⟨.released true, fun _ _ => rfl, (fun h => by cases h), theirs, reply, hreply,
          hasks⟩
  | syncCall session mySession rpc payload =>
      rcases hmay with ⟨rfl, hasks⟩
      cases r with
      | false =>
          cases hexchange
          refine ⟨⟨.failed, fun r' hr' => ?_, hself⟩, fun ev hin => by cases hin⟩
          rw [hr' True.intro]
          exact rfl
      | true =>
          cases hexchange
          refine ⟨⟨.asked, fun r' hr' => ?_, hself, _, rfl, hasks, ?_⟩, fun ev hin => by cases hin⟩
          · rw [hr' True.intro]
            exact rfl
          · intro first hfirst
            rw [show e.inbox = [] from htimely _ _ _ _ rfl] at hfirst
            cases hfirst
  | blockOnCaller timeoutUsec =>
      rw [show g = .asked from hmay] at hself ⊢
      rcases hself with ⟨hheld, mine, hawaited, hasks, hhead⟩
      cases r with
      | none =>
          cases hexchange
          refine ⟨⟨.failed, fun r' hr' => ?_, hheld⟩, fun ev hin => by cases hin⟩
          rw [hr' True.intro]
          exact rfl
      | some reply =>
          simp only [Endpoint.exchange] at hexchange
          split at hexchange
          · cases hexchange
          · next theirs bytes rest hinbox =>
              split at hexchange
              · cases hexchange
                rw [hinbox] at hhead
                have htheirs : theirs = mine := hhead _ rfl
                constructor
                · refine ⟨.answered reply, fun r' hr' => ?_, hheld, theirs, ?_, ?_⟩
                  · rw [hr' True.intro]
                    exact rfl
                  · exact Function.update_self _ _ _
                  · rw [htheirs]
                    exact hasks
                · intro ev hin
                  rw [List.mem_singleton.mp hin]
                  show e.awaited = some theirs
                  rw [hawaited, htheirs]
              · cases hexchange
  | postRead session pa sz =>
      cases hexchange
      rcases hmay with
        ⟨reply, d, heapHint, machineId, eagerFetch, rfl, hd, hpa, hsz, rfl, hsession⟩
      refine ⟨⟨_, fun _ _ => rfl, hself⟩, fun ev hin => ?_⟩
      rw [List.mem_singleton.mp hin]
      rcases hself with ⟨_, theirs, hreply, hasks⟩
      exact ⟨theirs, reply, d, hreply, hasks, hd, by rw [hsession, hasks.1], hpa, hsz⟩
  | pushPublicHeap heap =>
      cases hexchange
      rcases hmay with ⟨reply, heapHint, machineId, eagerFetch, rfl, rfl, hid⟩
      refine ⟨⟨_, fun _ _ => rfl, hself⟩, fun ev hin => ?_⟩
      rw [List.mem_singleton.mp hin]
      rcases hself with ⟨_, theirs, hreply, hasks⟩
      exact ⟨theirs, reply, hreply, hasks, by rw [hid, hasks.2.2]⟩
  | _ =>
      cases hexchange
      exact ⟨⟨g, fun _ _ => rfl, hself⟩, fun ev hin => by cases hin⟩

end Exchange
end Endpoints

/-!
## One step of the CPU
-/

section Steps

variable {lib : KernelLib Regs Rdma} {c : Cpu Regs Rdma bufSize}
variable {past now : List (CallEvent Regs Rdma)}

theorem callsMatched_init (pool : Pool bufSize) (cpu : CpuId) :
    CallsMatched lib (Cpu.init pool cpu : Cpu Regs Rdma bufSize) [] where
  idle _ _ h := by cases h
  command _ _ _ h := by cases h
  matched _ h := by cases h

theorem matched_append (h : forall e, e ∈ past -> e.Matched lib)
    (hnow : forall e, e ∈ now -> e.Matched lib) :
    forall e, e ∈ past ++ now -> e.Matched lib := by
  intro e hin
  cases List.mem_append.mp hin with
  | inl hpast => exact h e hpast
  | inr hin => exact hnow e hin

theorem CallsMatched.same (h : CallsMatched lib c past) {m : Machine Regs Rdma bufSize}
    (hrunning : m.running = c.machine.running) :
    CallsMatched lib { c with machine := m } (past ++ []) := by
  rw [List.append_nil]
  refine ⟨?_, ?_, h.matched⟩
  · intro self hnone
    exact h.idle self (by rw [← hrunning]; exact hnone)
  · intro self req p hp
    exact h.command self req p (by rw [← hrunning]; exact hp)

theorem CallsMatched.deliver (h : CallsMatched lib c past) {i : Nat} {reply : Bytes}
    {theirs : SentRequest} (htimely : Timely c (.deliver i reply))
    (hi : c.endpoint.inflight[i]? = some theirs) :
    CallsMatched lib
      { c with endpoint := { c.endpoint with
          inflight := c.endpoint.inflight.eraseIdx i
          inbox := c.endpoint.inbox ++ [(theirs, reply)] } } (past ++ []) := by
  rw [List.append_nil]
  refine ⟨h.idle, ?_, h.matched⟩
  intro self req p hp
  refine (h.command self req p hp).interfere fun g hg => ?_
  cases g with
  | asked =>
      rcases hg with ⟨hheld, mine, hawaited, hasks, hhead⟩
      refine ⟨hheld, mine, hawaited, hasks, ?_⟩
      intro first hfirst
      cases hinbox : c.endpoint.inbox with
      | cons head rest =>
          rw [hinbox] at hhead hfirst
          exact hhead first hfirst
      | nil =>
          have hmine : c.endpoint.inflight[i]? = some mine := by
            simpa only [Timely, hawaited, hinbox] using htimely
          rw [hi] at hmine
          rw [hinbox] at hfirst
          cases hfirst
          exact Option.some.inj hmine
  | released answered =>
      cases answered with
      | false => exact hg
      | true => exact hg
  | _ => exact hg

theorem CallsMatched.resume (h : CallsMatched lib c past) {self : Nat} {endpoint : Endpoint}
    {m : Machine Regs Rdma bufSize} {running : Option (Request × KProg Regs Rdma Int)}
    (hrunning : m.running = Function.update c.machine.running self running)
    (hkeeps : forall other, other ≠ self -> c.endpoint.Keeps other endpoint)
    (hidle : running = none -> endpoint.holder ≠ some self)
    (hself : forall req p, running = some (req, p) ->
      p.Follows (callProtocol lib req) (CallEnds req)
        (fun g e => e.Reflects lib self req g) endpoint)
    (hnow : forall e, e ∈ now -> e.Matched lib) :
    CallsMatched lib { c with machine := m, endpoint := endpoint } (past ++ now) := by
  refine ⟨?_, ?_, matched_append h.matched hnow⟩
  · intro other hnone
    have hother : m.running other = none := hnone
    rw [hrunning] at hother
    by_cases hne : other = self
    · subst hne
      rw [Function.update_self] at hother
      exact hidle hother
    · rw [Function.update_of_ne hne] at hother
      exact fun hheld => h.idle other hother ((hkeeps other hne).holder.mp hheld)
  · intro other req p hp
    have hother : m.running other = some (req, p) := hp
    rw [hrunning] at hother
    by_cases hne : other = self
    · subst hne
      rw [Function.update_self] at hother
      exact hself req p hother
    · rw [Function.update_of_ne hne] at hother
      exact (h.command other req p hother).interfere fun g hg => hg.stable (hkeeps other hne)

theorem CallsMatched.act (h : CallsMatched lib c past) {a : Act Regs Rdma}
    {endpoint : Endpoint} {m : Machine Regs Rdma bufSize} {events : List (Event Regs Rdma)}
    (htimely : Timely c (.act a))
    (hnotice : c.endpoint.notice c.cpu c.machine a = some (endpoint, now))
    (hstep : c.machine.Step lib a m events) :
    CallsMatched lib { c with machine := m, endpoint := endpoint } (past ++ now) := by
  cases hstep with
  | opened =>
      cases hnotice
      exact h.same rfl
  | closed self env hidle =>
      cases hnotice
      exact h.same rfl
  | started self req hidle =>
      cases hnotice
      apply h.resume rfl
      · exact fun _ _ => .refl
      · exact fun hnone => by cases hnone
      · intro req' p hp
        cases hp
        refine ⟨.outside, ioctrl_call lib req, ?_⟩
        exact h.idle self (Option.isNone_iff_eq_none.mp hidle.2)
      · exact fun e hin => by cases hin
  | finished self env req result hrunning =>
      simp only [Endpoint.notice, hrunning] at hnotice
      cases hnotice
      rcases h.command self req _ hrunning with ⟨g, hends, hg⟩
      rcases hends result rfl with ⟨hfree, hzero⟩
      apply h.resume rfl
      · exact fun other hne => ⟨Iff.rfl, Function.update_of_ne hne _ _, fun _ => ⟨rfl, rfl⟩⟩
      · exact fun _ hheld => hfree (hg.holder.mp hheld)
      · exact fun _ _ hp => by cases hp
      · intro e hin
        rw [List.mem_singleton.mp hin]
        intro heapHint machineId eagerFetch hreq hresult
        rw [hzero heapHint machineId eagerFetch hreq hresult] at hg
        exact hg.2
  | answered self env req o k hrunning hadmits =>
      simp only [Endpoint.notice, hrunning] at hnotice
      rcases h.command self req _ hrunning with ⟨g, hconf, hg⟩
      have hmove := exchange_reflects hnotice hconf.1 hg (by
        intro session mySession rpc payload ho
        subst ho
        simpa only [Timely, hrunning] using htimely)
      rcases hmove with ⟨⟨g', hnext, hg'⟩, hnow⟩
      apply h.resume rfl
      · exact fun other hne => exchange_keeps hnotice hconf.1 hg hne
      · exact fun hnone => by cases hnone
      · intro req' p hp
        cases hp
        refine ⟨g', hconf.2 _ g' (hnext _ fun ho => ?_), hg'⟩
        rw [serve_external lib self env c.machine.state ho]
      · exact hnow

theorem CallsMatched.step (h : CallsMatched lib c past) {a : CpuAct Regs Rdma}
    {c' : Cpu Regs Rdma bufSize} (htimely : Timely c a)
    (hstep : c.step lib a = some (c', now)) : CallsMatched lib c' (past ++ now) := by
  cases a with
  | act a =>
      simp only [Cpu.step] at hstep
      split at hstep
      · cases hstep
      · next endpoint now' hnotice =>
          rcases Option.map_eq_some_iff.mp hstep with ⟨⟨m, events⟩, hm, hpair⟩
          cases hpair
          exact h.act htimely hnotice (.of_step hm)
  | deliver i reply =>
      simp only [Cpu.step] at hstep
      split at hstep
      · cases hstep
      · next theirs hi =>
          cases hstep
          exact h.deliver htimely hi

end Steps

/-- In every run in which no late reply reaches a waiting command, each command
acts on the reply to its own request. -/
theorem replies_matched (lib : KernelLib Regs Rdma) (pool : Pool bufSize) (cpu : CpuId)
    {acts : List (CpuAct Regs Rdma)} {c : Cpu Regs Rdma bufSize}
    {past : List (CallEvent Regs Rdma)}
    (hmeets : RunMeets (Cpu.step lib) Timely (Cpu.init pool cpu) acts)
    (hrun : runFrom (Cpu.step lib) (Cpu.init pool cpu) acts = some (c, past)) :
    forall e, e ∈ past -> e.Matched lib := by
  have hstep : forall (c : Cpu Regs Rdma bufSize) (past : List (CallEvent Regs Rdma))
      (a : CpuAct Regs Rdma) (c' : Cpu Regs Rdma bufSize) (now : List (CallEvent Regs Rdma)),
      CallsMatched lib c past -> Timely c a -> c.step lib a = some (c', now) ->
        CallsMatched lib c' (past ++ now) :=
    fun _ _ _ _ _ h htimely hs => h.step htimely hs
  have hinv := runFrom_invariant hstep (callsMatched_init pool cpu) hmeets hrun
  exact hinv.matched
def emptyHeapReply : Bytes :=
  plainLib.queryReply.encode { pa := 0, sz := 24, ready := true }

def callSteps (n : Nat) (reply : Option Bytes) : List (CpuAct UInt64 UInt64) :=
  List.replicate n (.act (.resume 0
    { answer := obliging reply (List.replicate 24 0), task := smallTask, buf := 0 }))

def timelyActs : List (CpuAct UInt64 UInt64) :=
  [.act .openHandle, .act (.command 0 (.pull 1 1 false))] ++ callSteps 5 none ++
    [.deliver 0 emptyHeapReply] ++ callSteps 10 (some emptyHeapReply)

/-- A pull of hint 1 from machine 1 gives up, its reply arrives, and a pull of hint
2 from machine 2 follows. -/
def lateActs : List (CpuAct UInt64 UInt64) :=
  [.act .openHandle, .act (.command 0 (.pull 1 1 false))] ++ callSteps 8 none ++
    [.deliver 0 emptyHeapReply, .act (.command 0 (.pull 2 2 false))] ++
      callSteps 15 (some emptyHeapReply)

def endedCalls (past : List (CallEvent UInt64 UInt64)) :
    List (Request × Int × Option UInt64) :=
  past.filterMap fun
    | .ended _ req result answered => some (req, result, answered.map fun r => r.1.machine)
    | _ => none

theorem replies_matched_timely :
    exists (c : Cpu UInt64 UInt64 128) (past : List (CallEvent UInt64 UInt64)),
      RunMeets (Cpu.step plainLib) Timely (Cpu.init (Pool.zeroed 128) 0) timelyActs ∧
        runFrom (Cpu.step plainLib) (Cpu.init (Pool.zeroed 128) 0) timelyActs =
            some (c, past) ∧
          endedCalls past = [(.pull 1 1 false, 0, some 1)] ∧
            forall e, e ∈ past -> e.Matched plainLib := by
  have hobserved :
      (runFrom (Cpu.step plainLib)
        (Cpu.init (Pool.zeroed 128) 0 : Cpu UInt64 UInt64 128) timelyActs).map
          (fun r => endedCalls r.2) = some [(.pull 1 1 false, 0, some 1)] := by
    decide +kernel
  rcases Option.map_eq_some_iff.mp hobserved with ⟨⟨c, past⟩, hrun, hended⟩
  have hmeets : RunMeets (Cpu.step plainLib) Timely
      (Cpu.init (Pool.zeroed 128) 0 : Cpu UInt64 UInt64 128) timelyActs := by
    decide +kernel
  exact ⟨c, past, hmeets, hrun, hended,
    replies_matched plainLib (Pool.zeroed 128) 0 hmeets hrun⟩

theorem not_replies_matched_late :
    ¬ forall acts (c : Cpu UInt64 UInt64 128) past,
      runFrom (Cpu.step plainLib) (Cpu.init (Pool.zeroed 128) 0) acts = some (c, past) ->
        forall e, e ∈ past -> e.Matched plainLib := by
  intro h
  have hobserved :
      (runFrom (Cpu.step plainLib)
        (Cpu.init (Pool.zeroed 128) 0 : Cpu UInt64 UInt64 128) lateActs).map
          (fun r => endedCalls r.2) =
        some [(.pull 1 1 false, -1, none), (.pull 2 2 false, 0, some 1)] := by
    decide +kernel
  rcases Option.map_eq_some_iff.mp hobserved with ⟨⟨c, past⟩, hrun, hended⟩
  have hin : (Request.pull 2 2 false, (0 : Int), some (1 : UInt64)) ∈ endedCalls past := by
    rw [hended]
    exact List.mem_cons_of_mem _ List.mem_cons_self
  rcases List.mem_filterMap.mp hin with ⟨e, he, hsome⟩
  cases e with
  | ended self req result answered =>
      simp only [Option.some.injEq, Prod.mk.injEq] at hsome
      rcases hsome with ⟨rfl, rfl, hmachine⟩
      rcases h lateActs c past hrun _ he 2 2 false rfl rfl with ⟨theirs, reply, rfl, hasks⟩
      have hone : theirs.machine = 1 := Option.some.inj hmachine
      rw [hone] at hasks
      exact absurd hasks.1 (by decide)
  | _ => cases hsome

end Kernel
end Dmerge
